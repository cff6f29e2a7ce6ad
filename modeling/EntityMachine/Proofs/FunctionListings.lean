import EntityMachine.Listing
import EntityMachine.Proofs.Validation
import EntityMachine.Proofs.Runs
import Mathlib.Data.Nat.Find

/-!
Which statements the listings of functions show. A body ends where the next higher body starts, so no two bodies
overlap, and together they reach the end of the code. The next start is looked for in the whole table, however:
the row of the null function, which no check looks at, may end a body that it has nothing to do with.
-/
namespace EntityMachine
open Listing

namespace Program
variable {p : Program}

theorem function_iff {id : FunctionId} {f : Function} :
    p.function id = .ok f ↔ id.isNull = false ∧ p.image.functions[id.toNat]? = some f := by
  unfold function
  cases id.isNull with
  | true => simp [Outcome.fail]
  | false =>
      cases p.image.functions[id.toNat]? with
      | none => simp [Outcome.fail]
      | some g => simp

/-- A function that can be called has its body start there. -/
def Starts (p : Program) (start : Nat) : Prop :=
  ∃ id f, p.function id = .ok f ∧ f.isNative = false ∧ f.first.toNat = start

/-- No row of the table that cannot be called, such as the null function's, ends a body: where it names a statement
behind the start of a body, that statement is itself such a start, or the code ends there. -/
def RowsAside (p : Program) : Prop :=
  ∀ s ∈ bodyStarts p.image, (∃ start < s, p.Starts start) → p.Starts s ∨ s = p.image.statements.size

theorem mem_bodyStarts {image : Image} {s : Nat} : s ∈ bodyStarts image ↔
    ∃ (i : Nat) (f : Function), image.functions[i]? = some f ∧ f.isNative = false ∧ f.first.toNat = s := by
  simp only [bodyStarts, List.mem_map, List.mem_filter, Array.mem_toList_iff, Array.mem_iff_getElem?,
    Bool.not_eq_true']
  constructor
  · rintro ⟨f, ⟨⟨i, row⟩, body⟩, named⟩
    exact ⟨i, f, row, body, named⟩
  · rintro ⟨i, f, row, body, named⟩
    exact ⟨f, ⟨⟨i, row⟩, body⟩, named⟩

theorem row_start {i : Nat} {f : Function} (later : 1 ≤ i) (found : p.image.functions[i]? = some f)
    (body : f.isNative = false) : f.first.toNat < p.image.statements.size := by
  have fits := (p.valid.functions i f later found).first (f.isNative_iff.mp body)
  have known : 0 ≤ f.first := by simpa [Function.isNative] using body
  omega

theorem Starts.inside {start : Nat} (starts : p.Starts start) : start < p.image.statements.size := by
  obtain ⟨id, f, found, body, rfl⟩ := starts
  have known : 0 ≤ f.first := by simpa [Function.isNative] using body
  have fits := (p.function_fits found).2.first (f.isNative_iff.mp body)
  omega

theorem Starts.listed {start : Nat} (starts : p.Starts start) : start ∈ bodyStarts p.image := by
  obtain ⟨id, f, found, body, rfl⟩ := starts
  exact mem_bodyStarts.mpr ⟨id.toNat, f, (function_iff.mp found).2, body, rfl⟩

theorem past_end_unique {s s' : Nat} (listed : s ∈ bodyStarts p.image) (listed' : s' ∈ bodyStarts p.image)
    (past : p.image.statements.size ≤ s) (past' : p.image.statements.size ≤ s') : s = s' := by
  have first {s : Nat} (listed : s ∈ bodyStarts p.image) (past : p.image.statements.size ≤ s) :
      (p.image.functions[0]?).map (·.first.toNat) = some s := by
    obtain ⟨i, f, row, body, rfl⟩ := mem_bodyStarts.mp listed
    cases i with
    | zero =>
        rw [row]
        rfl
    | succ i =>
        have inside := row_start (Nat.succ_le_succ (Nat.zero_le i)) row body
        omega
  exact Option.some.inj ((first listed past).symm.trans (first listed' past'))

end Program

/-! ## Where a body ends -/

namespace Listing

theorem bodyEnd_cases (image : Image) (start : Nat) :
    (bodyEnd image start = image.statements.size ∧ ∀ s ∈ bodyStarts image, s ≤ start) ∨
      (bodyEnd image start ∈ bodyStarts image ∧ start < bodyEnd image start ∧
        ∀ s ∈ bodyStarts image, start < s → bodyEnd image start ≤ s) := by
  unfold bodyEnd
  cases above : ((bodyStarts image).filter (start < ·)).min? with
  | none =>
      have empty := List.min?_eq_none_iff.mp above
      refine .inl ⟨rfl, fun s member => Nat.le_of_not_lt fun higher => ?_⟩
      have kept : s ∈ (bodyStarts image).filter (start < ·) := List.mem_filter.mpr ⟨member, by simpa using higher⟩
      rw [empty] at kept
      cases kept
  | some last =>
      obtain ⟨member, least⟩ := List.min?_eq_some_iff.mp above
      obtain ⟨there, higher⟩ := List.mem_filter.mp member
      refine .inr ⟨there, by simpa using higher, fun s known above => ?_⟩
      exact least s (List.mem_filter.mpr ⟨known, by simpa using above⟩)

theorem bodyEnd_le {image : Image} {start s : Nat} (known : s ∈ bodyStarts image) (above : start < s) :
    bodyEnd image start ≤ s := by
  rcases bodyEnd_cases image start with ⟨-, highest⟩ | ⟨-, -, least⟩
  · exact absurd (highest s known) (Nat.not_le.mpr above)
  · exact least s known above

theorem bodies_apart {image : Image} {start start' i : Nat} (known : start ∈ bodyStarts image)
    (known' : start' ∈ bodyStarts image) (inside : start ≤ i ∧ i < bodyEnd image start)
    (inside' : start' ≤ i ∧ i < bodyEnd image start') : start = start' := by
  rcases Nat.lt_trichotomy start start' with below | same | above
  · have ends := bodyEnd_le known' below
    omega
  · exact same
  · have ends := bodyEnd_le known above
    omega

theorem mem_body {image : Image} {start : Nat} {statements : List (Nat × Statement)}
    (listed : body? image start = some statements) (i : Nat) (s : Statement) :
    (i, s) ∈ statements ↔ start ≤ i ∧ i < bodyEnd image start ∧ image.statements[i]? = some s := by
  obtain ⟨⟨ordered, inside⟩, same⟩ := Option.ite_none_right_eq_some.mp listed
  cases same
  simp only [List.mem_map, Prod.exists, List.mk_mem_zipIdx_iff_getElem?, Array.getElem?_toList, Prod.mk.injEq,
    Array.getElem?_extract]
  constructor
  · rintro ⟨s, k, found, rfl, rfl⟩
    grind
  · rintro ⟨low, high, found⟩
    exact ⟨s, i - start, by grind, by omega, rfl⟩

/-- The listing of a function shows the statement at an index. -/
def Shows (p : Program) (id : FunctionId) (i : Nat) : Prop :=
  ∃ f statements s, p.function id = .ok f ∧ f.isNative = false ∧ body? p.image f.first.toNat = some statements ∧
    (i, s) ∈ statements

section Program
variable {p : Program} {id : FunctionId} {f : Function}

theorem body?_isSome (found : p.function id = .ok f) (body : f.isNative = false) :
    (body? p.image f.first.toNat).isSome = true ↔ bodyEnd p.image f.first.toNat ≤ p.image.statements.size := by
  have inside : f.first.toNat < p.image.statements.size := Program.Starts.inside ⟨id, f, found, body, rfl⟩
  have ordered : f.first.toNat ≤ bodyEnd p.image f.first.toNat := by
    rcases bodyEnd_cases p.image f.first.toNat with ⟨last, -⟩ | ⟨-, above, -⟩ <;> omega
  simp [body?, ordered]

theorem shows_iff (found : p.function id = .ok f) (body : f.isNative = false) (i : Nat) :
    Shows p id i ↔ bodyEnd p.image f.first.toNat ≤ p.image.statements.size ∧ f.first.toNat ≤ i ∧
      i < bodyEnd p.image f.first.toNat := by
  constructor
  · rintro ⟨g, statements, s, again, -, listed, shown⟩
    cases found.symm.trans again
    obtain ⟨low, high, -⟩ := (mem_body listed i s).mp shown
    exact ⟨(body?_isSome found body).mp (by rw [listed]; rfl), low, high⟩
  · rintro ⟨last, low, high⟩
    obtain ⟨statements, listed⟩ := Option.isSome_iff_exists.mp ((body?_isSome found body).mpr last)
    have inside : i < p.image.statements.size := Nat.lt_of_lt_of_le high last
    exact ⟨f, statements, _, found, body, listed,
      (mem_body listed i _).mpr ⟨low, high, Array.getElem?_eq_getElem inside⟩⟩

theorem functionText_listed (found : p.function id = .ok f)
    (inside : f.isNative = false → bodyEnd p.image f.first.toNat ≤ p.image.statements.size) :
    ∃ text, functionText p id = .ok text := by
  unfold functionText
  rw [found, Outcome.ok_bind]
  cases native : f.nativeNumber? with
  | some number => exact ⟨_, rfl⟩
  | none =>
      have body := f.isNative_iff.mpr native
      obtain ⟨statements, listed⟩ := Option.isSome_iff_exists.mp ((body?_isSome found body).mpr (inside body))
      rw [listed]
      exact ⟨_, rfl⟩

theorem functionText_fault (found : p.function id = .ok f) (body : f.isNative = false)
    (past : p.image.statements.size < bodyEnd p.image f.first.toNat) : functionText p id = .error .fault := by
  have unlisted : body? p.image f.first.toNat = none := by
    rw [← Option.not_isSome_iff_eq_none, body?_isSome found body]
    exact Nat.not_le.mpr past
  unfold functionText
  rw [found, Outcome.ok_bind, f.isNative_iff.mp body, unlisted]
  rfl

end Program
end Listing

namespace Program
variable {p : Program}

theorem RowsAside.bodyEnd_le_size (aside : p.RowsAside) {start : Nat} (starts : p.Starts start) :
    bodyEnd p.image start ≤ p.image.statements.size := by
  rcases bodyEnd_cases p.image start with ⟨last, -⟩ | ⟨listed, above, -⟩
  · exact Nat.le_of_eq last
  · rcases aside _ listed ⟨start, above, starts⟩ with next | last
    · exact Nat.le_of_lt next.inside
    · exact Nat.le_of_eq last

/-- A statement belongs to the body with the highest start that is not behind it. -/
theorem RowsAside.covers (aside : p.RowsAside) {start i : Nat} (starts : p.Starts start) (low : start ≤ i)
    (inside : i < p.image.statements.size) : ∃ id, Shows p id i := by
  classical
  have reached : p.Starts (Nat.findGreatest p.Starts i) := Nat.findGreatest_spec low starts
  have highest : Nat.findGreatest p.Starts i ≤ i := Nat.findGreatest_le i
  obtain ⟨id, f, called, body, same⟩ := reached
  have found : p.Starts f.first.toNat := ⟨id, f, called, body, rfl⟩
  refine ⟨id, (shows_iff called body i).mpr ⟨aside.bodyEnd_le_size found, same ▸ highest, ?_⟩⟩
  rcases bodyEnd_cases p.image f.first.toNat with ⟨ends, -⟩ | ⟨listed, above, -⟩
  · omega
  · rcases aside _ listed ⟨_, above, found⟩ with next | ends
    · apply Nat.lt_of_not_le
      intro behind
      have higher := Nat.le_findGreatest behind next
      omega
    · omega

theorem rowsAside_of_covers (covers : ∀ start i, p.Starts start → start ≤ i → i < p.image.statements.size →
    ∃ id, Shows p id i) : p.RowsAside := by
  rintro s listed ⟨start, above, starts⟩
  have first := starts.inside
  rcases Nat.lt_or_ge s p.image.statements.size with inside | past
  -- The statement that the row names is shown, and a body that shows it cannot start before it.
  · obtain ⟨id, shown⟩ := covers start s starts (Nat.le_of_lt above) inside
    have ⟨f, _, _, found, body, _⟩ := shown
    obtain ⟨-, low, high⟩ := (shows_iff found body s).mp shown
    rcases Nat.lt_or_eq_of_le low with below | same
    · have ends := bodyEnd_le listed below
      omega
    · exact .inl ⟨id, f, found, body, same⟩
  -- The last statement is shown, so one row names the end of the code, and there is none but this.
  · obtain ⟨id, shown⟩ := covers start (p.image.statements.size - 1) starts (by omega) (by omega)
    have ⟨f, _, _, found, body, _⟩ := shown
    obtain ⟨last, low, high⟩ := (shows_iff found body _).mp shown
    have ends : bodyEnd p.image f.first.toNat = p.image.statements.size := by omega
    rcases bodyEnd_cases p.image f.first.toNat with ⟨-, highest⟩ | ⟨next, -, -⟩
    · have bound := highest s listed
      omega
    · exact .inr (past_end_unique listed (ends ▸ next) past (Nat.le_refl _))

/-- A null function that is native or starts where the code does stands in no body's way. -/
theorem rowsAside_of_null_row (addressable : p.image.functions.size ≤ 4294967296)
    (null : ∀ f, p.image.functions[0]? = some f → f.isNative = false → f.first.toNat = 0) : p.RowsAside := by
  rintro s listed ⟨start, above, -⟩
  obtain ⟨i, f, row, body, rfl⟩ := mem_bodyStarts.mp listed
  have inside : i < p.image.functions.size := (Array.getElem?_eq_some_iff.mp row).1
  have index : (FunctionId.ofNat i).toNat = i := UInt32.toNat_ofNat_of_lt' (Nat.lt_of_lt_of_le inside addressable)
  cases i with
  | zero =>
      have bottom := null f row body
      omega
  | succ i =>
      refine .inl ⟨.ofNat (i + 1), f, function_iff.mpr ⟨?_, index.symm ▸ row⟩, body, rfl⟩
      refine beq_eq_false_iff_ne.mpr fun zero => Nat.succ_ne_zero i ?_
      exact index.symm.trans (congrArg UInt32.toNat zero)

/-- The null function and what is not in the table have no listing, and every error is of these. What is listed lies in
bodies that overlap only where they start at the same statement. The listings are complete, and all come about, exactly
if no row that cannot be called ends a body: then they show each statement from the first start on. -/
theorem listings_partition (p : Program) :
    (∀ id : FunctionId, id.isNull = true → functionText p id = .fail .nullFunction) ∧
      (∀ id : FunctionId, id.isNull = false → p.image.functions.size ≤ id.toNat →
        functionText p id = .fail (.badFunction id)) ∧
      (∀ id f e, p.function id = .ok f → functionText p id ≠ .error (.error e)) ∧
      (∀ id id' f f' i, p.function id = .ok f → p.function id' = .ok f' → Shows p id i → Shows p id' i →
        f.first.toNat = f'.first.toNat) ∧
      (p.RowsAside ↔ (∀ id f, p.function id = .ok f → ∃ text, functionText p id = .ok text) ∧
        ∀ start i, p.Starts start → start ≤ i → i < p.image.statements.size → ∃ id, Shows p id i) := by
  have refused {id : FunctionId} {cause : Cause} (none : p.function id = .fail cause) :
      functionText p id = .fail cause := by
    rw [functionText, none]
    rfl
  refine ⟨fun id null => refused ?_, fun id called outside => refused ?_, fun id f e found => ?_,
    fun id id' f f' i found found' shown shown' => ?_, ?_, ?_⟩
  · rw [function, null]
    rfl
  · rw [function, called, Array.getElem?_eq_none outside]
    rfl
  · by_cases past : f.isNative = false ∧ p.image.statements.size < bodyEnd p.image f.first.toNat
    · rw [functionText_fault found past.1 past.2]
      nofun
    · obtain ⟨text, listed⟩ := functionText_listed found fun body => Nat.le_of_not_lt fun beyond =>
        past ⟨body, beyond⟩
      rw [listed]
      nofun
  · have ⟨g, _, _, same, body, _⟩ := shown
    have ⟨g', _, _, same', body', _⟩ := shown'
    cases found.symm.trans same
    cases found'.symm.trans same'
    exact bodies_apart (Starts.listed ⟨id, f, found, body, rfl⟩) (Starts.listed ⟨id', f', found', body', rfl⟩)
      ((shows_iff found body i).mp shown).2 ((shows_iff found' body' i).mp shown').2
  · intro aside
    refine ⟨fun id f found => functionText_listed found fun body => ?_, fun _ _ starts low inside =>
      aside.covers starts low inside⟩
    exact aside.bodyEnd_le_size ⟨id, f, found, body, rfl⟩
  · rintro ⟨-, covers⟩
    exact rowsAside_of_covers covers

def overhungImage : Image where
  statements := #[⟨0, 0, 0, 0⟩]
  functions := #[{ first := 100 }, {}]
  globals := Array.replicate 28 ⟨0⟩

theorem overhungImage_places : overhungImage.systemGlobals = {} ∧ overhungImage.systemFields = {} := ⟨rfl, rfl⟩

def overhung : Program where
  image := overhungImage
  globals := {}
  fields := {}
  sound := by decide +kernel
  globals_eq := overhungImage_places.1.symm
  fields_eq := overhungImage_places.2.symm

/-- The listing of a function that can be called may fault. -/
theorem overhung_unlisted : overhung.function ⟨1⟩ = .ok {} ∧ functionText overhung ⟨1⟩ = .error .fault :=
  ⟨rfl, rfl⟩

end Program
end EntityMachine
