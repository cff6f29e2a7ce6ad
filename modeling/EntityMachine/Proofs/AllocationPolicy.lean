import EntityMachine.Proofs.Ownership

/-!
Which record is handed out. The three searches of an allocation are described by what they find: the
lowest record that may be reused, else a new one, else the one that has been free the longest.
-/
namespace EntityMachine.Entities

/-- The record is free, and was freed in the grace period or long enough before now. -/
def Reusable (t : Entities) (now : Single) (i : Nat) : Prop :=
  ∃ s, t.states[i]? = some s ∧ s.free = true ∧
    (s.freeTime.lt t.config.startupGrace = true ∨
      Single.le t.config.hysteresis (now - s.freeTime) = true)

/-- Of some records, this one is free and none of the others was freed earlier, or at the same time and
lies lower. Times are in the total order of all patterns. -/
def Oldest (t : Entities) (among : Nat → Prop) (i : Nat) : Prop :=
  among i ∧ ∃ s, t.states[i]? = some s ∧ s.free = true ∧
    ∀ j s', among j → t.states[j]? = some s' → s'.free = true →
      s.freeTime.totalRank < s'.freeTime.totalRank ∨
        s.freeTime.totalRank = s'.freeTime.totalRank ∧ i ≤ j

/-- The table has all its records, and those that are not reserved are in use. -/
def Exhausted (t : Entities) : Prop :=
  t.size = t.capacity ∧ ∀ i, t.config.reserved ≤ i → ¬ t.Free i

/-- The record that the policy chooses at a time. -/
inductive Chosen (t : Entities) (now : Single) : Nat → Prop
  | reused {i : Nat} : t.config.reserved ≤ i → t.Reusable now i →
      (∀ j, t.config.reserved ≤ j → t.Reusable now j → i ≤ j) → Chosen t now i
  | new : (∀ j, t.config.reserved ≤ j → ¬ t.Reusable now j) → t.size < t.capacity → Chosen t now t.size
  | oldest {i : Nat} : (∀ j, t.config.reserved ≤ j → ¬ t.Reusable now j) → t.capacity ≤ t.size →
      t.Oldest (t.config.reserved ≤ ·) i → Chosen t now i

/-- A record was handed out afresh, and nothing else was touched. -/
structure Renewed (t : Entities) (i : Nat) (t' : Entities) : Prop where
  layout : t'.layout = t.layout
  config : t'.config = t.config
  size : t'.size = max t.size (i + 1)
  state : t'.states[i]? = some {}
  states : ∀ j, j ≠ i → t'.states[j]? = t.states[j]?
  cell : ∀ k, k < t.layout.fieldCount → t'.cellOf? i k = some .zero
  cells : ∀ j k, j ≠ i → k < t.layout.fieldCount → t'.cellOf? j k = t.cellOf? j k

theorem Reusable.free {t : Entities} {now : Single} {i : Nat} (reusable : t.Reusable now i) : t.Free i := by
  obtain ⟨s, found, free, -⟩ := reusable
  exact ⟨s, found, free⟩

/-! ## The first reusable record -/

theorem reusable_iff (t : Entities) (now : Single) (i : Nat) :
    t.states[i]?.any (t.reusable now) = true ↔ t.Reusable now i := by
  simp [Reusable, reusable, Option.any_eq_true]

/-- A search passes over a record only if the record does not meet the condition. -/
theorem firstAmong_passes (t : Entities) (condition : RecordState → Bool) (count start : Nat) :
    ∀ j, start ≤ j → j < (t.firstAmong condition count start).getD (start + count) →
      ¬ t.states[j]?.any condition = true := by
  induction count generalizing start with
  | zero => exact fun j from_ before => absurd before (Nat.not_lt.mpr from_)
  | succ count ih =>
      intro j from_ before
      rw [firstAmong] at before
      by_cases here : t.states[start]?.any condition = true
      · rw [if_pos here] at before
        exact absurd before (Nat.not_lt.mpr from_)
      · rw [if_neg here, Nat.add_comm count, ← Nat.add_assoc] at before
        rcases Nat.eq_or_lt_of_le from_ with rfl | later
        · exact here
        · exact ih (start + 1) j later before

theorem firstAmong_least {t : Entities} {condition : RecordState → Bool} {count start i : Nat}
    (found : t.firstAmong condition count start = some i) :
    ∀ j, start ≤ j → j < i → ¬ t.states[j]?.any condition = true := by
  have passes := t.firstAmong_passes condition count start
  rwa [found] at passes

theorem firstFrom_none {t : Entities} {condition : RecordState → Bool} {start : Nat}
    (missing : t.firstFrom start condition = none) :
    ∀ j, start ≤ j → ¬ t.states[j]?.any condition = true := by
  intro j from_ holds
  have inside : j < t.size := by
    obtain ⟨s, found, -⟩ := (Option.any_eq_true _ _).mp holds
    exact (Array.getElem?_eq_some_iff.mp found).1
  refine t.firstAmong_passes condition (t.size - start) start j from_ ?_ holds
  rw [show t.firstAmong condition (t.size - start) start = none from missing]
  change j < start + (t.size - start)
  omega

/-! ## The record that has been free the longest -/

/-- What the search knows after it has looked at some records. -/
def Leads (t : Entities) (among : Nat → Prop) : Option Nat → Prop
  | none => ∀ j, among j → ¬ t.Free j
  | some i => t.Oldest among i

theorem Leads.widen {t : Entities} {among among' : Nat → Prop} {best : Option Nat}
    (leads : t.Leads among best) (wider : ∀ j, among j → among' j)
    (same : ∀ j, among' j → t.Free j → among j) : t.Leads among' best := by
  cases best with
  | none => exact fun j seen free => leads j (same j seen free) free
  | some i =>
      obtain ⟨seen, s, found, free, ahead⟩ := leads
      exact ⟨wider i seen, s, found, free, fun j s' seen' found' free' =>
        ahead j s' (same j seen' ⟨s', found', free'⟩) found' free'⟩

theorem earlier_used {t : Entities} {i : Nat} (used : ¬ t.Free i) (best : Option Nat) :
    t.earlier best i = best := by
  unfold earlier
  cases found : t.states[i]? with
  | none => rfl
  | some s =>
      have taken : s.free = false := by
        by_contra free
        exact used ⟨s, found, by simpa using free⟩
      simp [taken]

theorem holds_or {t : Entities} {among : Nat → Prop} {i : Nat} {s : RecordState}
    (found : t.states[i]? = some s) {holds : Nat → RecordState → Prop}
    (before : ∀ j s', among j → t.states[j]? = some s' → s'.free = true → holds j s') (here : holds i s)
    (j : Nat) (s' : RecordState) (seen : among j ∨ j = i) (found' : t.states[j]? = some s')
    (free : s'.free = true) : holds j s' := by
  rcases seen with behind | rfl
  · exact before j s' behind found' free
  · rw [found] at found'
    cases found'
    exact here

theorem earlier_leads {t : Entities} {among : Nat → Prop} {best : Option Nat} (leads : t.Leads among best)
    {i : Nat} (above : ∀ j, among j → j < i) :
    t.Leads (fun j => among j ∨ j = i) (t.earlier best i) := by
  by_cases free : t.Free i
  · obtain ⟨s, found, isFree⟩ := free
    cases best with
    | none =>
        have first : t.earlier none i = some i := by simp [earlier, found, isFree]
        rw [first]
        refine ⟨.inr rfl, s, found, isFree, holds_or found ?_ (.inr ⟨rfl, Nat.le_refl i⟩)⟩
        exact fun j s' seen found' isFree' => absurd ⟨s', found', isFree'⟩ (leads j seen)
    | some b =>
        obtain ⟨seen, sb, foundBest, freeBest, ahead⟩ := leads
        have compared : t.earlier (some b) i =
            if s.freeTime.totalRank < sb.freeTime.totalRank then some i else some b := by
          simp [earlier, found, isFree, foundBest]
        rw [compared]
        by_cases sooner : s.freeTime.totalRank < sb.freeTime.totalRank
        · rw [if_pos sooner]
          refine ⟨.inr rfl, s, found, isFree, holds_or found ?_ (.inr ⟨rfl, Nat.le_refl i⟩)⟩
          intro j s' before found' isFree'
          have behind := ahead j s' before found' isFree'
          exact .inl (by omega)
        -- On a tie the earlier record stays, which is the lower one.
        · rw [if_neg sooner]
          refine ⟨.inl seen, sb, foundBest, freeBest, holds_or found ahead ?_⟩
          have lower := above b seen
          omega
  · rw [earlier_used free]
    refine leads.widen (fun j before => .inl before) fun j seen isFree => seen.resolve_right ?_
    rintro rfl
    exact free isFree

theorem foldl_earlier_leads {t : Entities} (count start : Nat) {low : Nat} {best : Option Nat}
    (below : low ≤ start) (leads : t.Leads (fun j => low ≤ j ∧ j < start) best) :
    t.Leads (fun j => low ≤ j ∧ j < start + count) ((List.range' start count).foldl t.earlier best) := by
  induction count generalizing start best with
  | zero => exact leads
  | succ count ih =>
      rw [List.range'_succ, List.foldl_cons]
      have further := earlier_leads leads (i := start) fun j seen => seen.2
      have seen : (fun j => (low ≤ j ∧ j < start) ∨ j = start) = fun j => low ≤ j ∧ j < start + 1 := by
        funext j
        exact propext (by omega)
      rw [seen] at further
      have all := ih (start + 1) (by omega) further
      rwa [Nat.add_right_comm] at all

theorem longestFree?_leads (t : Entities) : t.Leads (t.config.reserved ≤ ·) t.longestFree? := by
  have listed : (List.range t.size).drop t.config.reserved =
      List.range' t.config.reserved (t.size - t.config.reserved) := by
    rw [List.range_eq_range', List.drop_range']
    simp
  have nothing : t.Leads (fun j => t.config.reserved ≤ j ∧ j < t.config.reserved) none := by
    rintro j ⟨from_, before⟩
    omega
  have all := foldl_earlier_leads (t.size - t.config.reserved) t.config.reserved (Nat.le_refl _) nothing
  rw [← listed] at all
  refine all.widen (fun j seen => seen.1) fun j from_ free => ⟨from_, ?_⟩
  have inside := free.inside
  omega

/-! ## The choice -/

/-- The searches find what the policy chooses, and nothing just where the table is exhausted. -/
theorem candidate_chosen {t : Entities} (well : t.WellFormed) (now : Single) :
    (∃ i, t.candidate now = .ok i ∧ t.Chosen now i) ∨
      t.candidate now = .fail (.limitExceeded (.records t.capacity)) ∧ t.Exhausted := by
  cases found : t.firstFrom t.config.reserved (t.reusable now) with
  | some i =>
      obtain ⟨from_, s, here, reusable⟩ := firstAmong_some found
      have chosen : t.Reusable now i := (reusable_iff t now i).mp (by rw [here]; exact reusable)
      refine .inl ⟨i, by rw [candidate, found], .reused from_ chosen fun j above again => ?_⟩
      by_contra before
      exact firstAmong_least found j above (by omega) ((reusable_iff t now j).mpr again)
  | none =>
      have none_ (j : Nat) (above : t.config.reserved ≤ j) : ¬ t.Reusable now j :=
        fun reusable => firstFrom_none found j above ((reusable_iff t now j).mpr reusable)
      by_cases room : t.size < t.capacity
      · exact .inl ⟨t.size, by simp [candidate, found, room], .new none_ room⟩
      · have leads := t.longestFree?_leads
        cases longest : t.longestFree? with
        | some i =>
            rw [longest] at leads
            exact .inl ⟨i, by simp [candidate, found, room, longest], .oldest none_ (by omega) leads⟩
        | none =>
            rw [longest] at leads
            have full := well.room
            exact .inr ⟨by simp [candidate, found, room, longest], by omega, leads⟩

theorem Chosen.available {t : Entities} {now : Single} {i : Nat} (chosen : t.Chosen now i) :
    ¬ t.Exhausted := by
  rintro ⟨full, used⟩
  cases chosen with
  | reused above reusable => exact used i above reusable.free
  | new _ room => omega
  | oldest _ _ oldest =>
      obtain ⟨above, s, found, free, -⟩ := oldest
      exact used i above ⟨s, found, free⟩

theorem Chosen.unique {t : Entities} {now : Single} {i j : Nat} (chosen : t.Chosen now i)
    (other : t.Chosen now j) : i = j := by
  cases chosen with
  | reused above reusable least =>
      cases other with
      | reused above' reusable' least' =>
          exact Nat.le_antisymm (least j above' reusable') (least' i above reusable)
      | new none_ => exact absurd reusable (none_ i above)
      | oldest none_ => exact absurd reusable (none_ i above)
  | new none_ room =>
      cases other with
      | reused above reusable => exact absurd reusable (none_ j above)
      | new => rfl
      | oldest _ full => omega
  | oldest none_ full oldest =>
      cases other with
      | reused above reusable => exact absurd reusable (none_ j above)
      | new _ room => omega
      | oldest _ _ oldest' =>
          obtain ⟨above, s, found, free, ahead⟩ := oldest
          obtain ⟨above', s', found', free', ahead'⟩ := oldest'
          have before := ahead j s' above' found' free'
          have behind := ahead' i s above found free
          omega

/-! ## The record -/

theorem take_renews {t : Entities} (well : t.WellFormed) {i : Nat} (inside : i ≤ t.size)
    (room : i < t.capacity) : t.Renewed i (t.take i) := by
  have record := well.record_inside room
  have cells (j k : Nat) (low : k < t.layout.fieldCount) :
      (t.take i).cellOf? j k = if j = i then some .zero else t.cellOf? j k := by
    change (t.take i).cells[j * t.layout.fieldCount + k]? = _
    rw [take, Segment.storeAll_get, List.length_replicate]
    by_cases same : j = i
    · subst same
      rw [if_pos rfl, if_pos (by omega), List.getElem?_replicate, if_pos (by omega)]
    · have apart := records_apart same low
      rw [if_neg same, if_neg (by omega)]
      rfl
  constructor
  case layout => rfl
  case config => rfl
  case size => exact take_size inside
  case state => rw [take_state inside, if_pos rfl]
  case states =>
    intro j other
    rw [take_state inside, if_neg other]
  case cell =>
    intro k low
    rw [cells i k low, if_pos rfl]
  case cells =>
    intro j k other low
    rw [cells j k low, if_neg other]

/-- Whatever requests a table was given since it was created, an allocation hands out the record that the
policy chooses, zeroed and in use, and touches no other; it fails just where the table is exhausted, and
then changes nothing. -/
theorem allocation_follows_policy {layout : Layout} {config : EntityConfig} {t : Entities}
    {held : List Nat} (history : History layout config t held) (now : Single) :
    let exceeded : Outcome (Option EntityIndex) := .fail (.limitExceeded (.records t.capacity))
    ((∃ e t', (Request.allocate now).perform t = (.ok (some e), t') ∧
        (∀ i, t.Chosen now i ↔ i = e.toNat) ∧ t.Renewed e.toNat t') ∨
          (Request.allocate now).perform t = (exceeded, t)) ∧
      (((Request.allocate now).perform t).1 = exceeded ↔ t.Exhausted) := by
  intro exceeded
  have well := history.owned.1.wellFormed
  rcases candidate_chosen well now with ⟨i, found, chosen⟩ | ⟨none_, exhausted⟩
  · obtain ⟨-, -, inside, room⟩ := candidate_place well found
    have held : t.hasCells i = true := decide_eq_true (well.record_inside room)
    have done : (Request.allocate now).perform t = (.ok (some (.ofNat i)), t.take i) := by
      simp only [Request.perform, Request.answer, allocate, found, Outcome.ok_bind, if_pos held]
      rfl
    rw [done]
    refine ⟨.inl ⟨_, _, rfl, fun j => ?_, ?_⟩, fun failed => ?_,
      fun exhausted => absurd exhausted chosen.available⟩
    · rw [index_toNat well room]
      constructor
      · exact fun other => other.unique chosen
      · rintro rfl
        exact chosen
    · rw [index_toNat well room]
      exact take_renews well inside room
    · change Except.ok _ = Except.error _ at failed
      cases failed
  · have done : (Request.allocate now).perform t = (exceeded, t) := by
      simp only [Request.perform, Request.answer, allocate, none_]
      rfl
    rw [done]
    exact ⟨.inr rfl, fun _ => exhausted, fun _ => rfl⟩

/-- A full table whose records were freed at no time at all, at zero and at negative zero hands out the one
of negative zero. -/
theorem allocation_follows_policy_full :
    ∃ t held t', History { fieldCount := 2 } { capacity := 4 } t held ∧
      (Request.allocate .zero).perform t = (.ok (some ⟨3⟩), t') ∧
      (∀ i, t.Chosen .zero i ↔ i = 3) ∧ t.Renewed 3 t' ∧ ¬ t.Exhausted := by
  have fresh : History { fieldCount := 2 } { capacity := 4 } _ [] := .created
  have full := ((fresh.asked (.allocate .zero) (by decide)).asked (.allocate .zero) (by decide)).asked
    (.allocate .zero) (by decide)
  have nan := full.asked (.free ⟨1⟩ ⟨0x7fc00000⟩) (by decide)
  have zero := nan.asked (.free ⟨2⟩ .zero) (by decide)
  have freed := zero.asked (.free ⟨3⟩ ⟨0x80000000⟩) (by decide)
  obtain ⟨⟨e, t', done, chosen, renewed⟩ | failed, exceeded⟩ := allocation_follows_policy freed .zero
  · obtain rfl : e = ⟨3⟩ := by
      have answer := congrArg Prod.fst done
      cases answer
      rfl
    refine ⟨_, _, t', freed, done, chosen, renewed, fun exhausted => ?_⟩
    rw [done] at exceeded
    cases exceeded.mpr exhausted
  · cases congrArg Prod.fst failed

end EntityMachine.Entities
