import EntityMachine.Proofs.PoolCoherence

/-!
String pools in order. The ring of a pool that was read from somewhere else can lie anywhere. A short-lived
text finds its slot as long as the data can be cut at the slots' ends, and then the data can be cut there
again afterwards, so a pool in order takes any number of texts.
-/
namespace EntityMachine.StringPool

/-- There is a character boundary at this byte. -/
def CutsAt (text : String) (offset : Nat) : Prop :=
  ∃ first second : String, text = first ++ second ∧ first.utf8ByteSize = offset

/-- The cursor names a slot, the slots lie in the data and start and end on character boundaries, and ids can
name them all. A pool without a ring has the room to make one. -/
structure InOrder (p : StringPool) : Prop where
  cursor : p.cursor < ringSlots
  slots : ∀ base ∈ p.ringBase, ∀ slot ≤ ringSlots, CutsAt p.data (base + slot * slotBytes)
  room : p.ringBase.getD p.size + ringBytes ≤ offsetLimit

/-! ## Cuts -/

theorem CutsAt.inside {text : String} {offset : Nat} (cuts : CutsAt text offset) :
    offset ≤ text.utf8ByteSize := by
  obtain ⟨first, second, rfl, rfl⟩ := cuts
  rw [String.utf8ByteSize_append]
  exact Nat.le_add_right _ _

theorem cutsAt_left {first second : String} {offset : Nat} (cuts : CutsAt first offset) :
    CutsAt (first ++ second) offset := by
  obtain ⟨before, after, rfl, place⟩ := cuts
  exact ⟨before, after ++ second, String.append_assoc, place⟩

theorem cutsAt_right (first : String) {second : String} {offset : Nat} (cuts : CutsAt second offset) :
    CutsAt (first ++ second) (first.utf8ByteSize + offset) := by
  obtain ⟨before, after, rfl, rfl⟩ := cuts
  exact ⟨first ++ before, after, String.append_assoc.symm, String.utf8ByteSize_append⟩

theorem cutsAt_append (first second : String) (offset : Nat) :
    CutsAt (first ++ second) offset ↔ CutsAt first offset ∨
      ∃ rest, offset = first.utf8ByteSize + rest ∧ CutsAt second rest := by
  constructor
  · rintro ⟨before, after, same, rfl⟩
    rcases Nat.le_total before.utf8ByteSize first.utf8ByteSize with short | long
    · obtain ⟨middle, whole, -⟩ := append_split same.symm short
      exact .inl ⟨before, middle, whole, rfl⟩
    · obtain ⟨middle, rfl, whole⟩ := append_split same long
      exact .inr ⟨_, String.utf8ByteSize_append, middle, after, whole, rfl⟩
  · rintro (cuts | ⟨rest, rfl, cuts⟩)
    · exact cutsAt_left cuts
    · exact cutsAt_right first cuts

theorem cutsAt_part {text : String} {offset count : Nat} (starts : CutsAt text offset)
    (stops : CutsAt text (offset + count)) :
    ∃ before part after, text = before ++ part ++ after ∧ before.utf8ByteSize = offset ∧
      part.utf8ByteSize = count := by
  obtain ⟨before, behind, rfl, rfl⟩ := starts
  rcases (cutsAt_append _ _ _).mp stops with early | ⟨rest, place, part, after, rfl, rfl⟩
  · have inside := early.inside
    obtain rfl : count = 0 := by omega
    exact ⟨before, "", behind, by rw [String.append_empty], rfl, rfl⟩
  · exact ⟨before, part, after, String.append_assoc.symm, rfl, (Nat.add_left_cancel place).symm⟩

theorem cutsAt_replaced {before part other after : String} (same : other.utf8ByteSize = part.utf8ByteSize)
    {offset : Nat} (cuts : CutsAt (before ++ part ++ after) offset)
    (outside : offset ≤ before.utf8ByteSize ∨ before.utf8ByteSize + part.utf8ByteSize ≤ offset) :
    CutsAt (before ++ other ++ after) offset := by
  rcases outside with early | late
  · obtain ⟨first, second, parts, rfl⟩ := cuts
    rw [String.append_assoc] at parts
    obtain ⟨middle, rfl, -⟩ := append_split parts.symm early
    exact ⟨first, middle ++ other ++ after, by simp only [String.append_assoc], rfl⟩
  · rcases (cutsAt_append _ _ _).mp cuts with inside | ⟨rest, rfl, behind⟩
    · have last := inside.inside
      rw [String.utf8ByteSize_append] at last
      have place : offset = (before ++ other).utf8ByteSize := by
        rw [String.utf8ByteSize_append, same]
        omega
      exact ⟨before ++ other, after, rfl, place.symm⟩
    · rw [String.utf8ByteSize_append, ← same, ← String.utf8ByteSize_append]
      exact cutsAt_right _ behind

/-! ## Pools in order -/

theorem empty_inOrder : InOrder .empty where
  cursor := by decide
  slots := nofun
  room := by decide

theorem Reachable.inOrder {p : StringPool} (reachable : p.Reachable)
    (room : p.ringBase.getD p.size + ringBytes ≤ offsetLimit) : p.InOrder := by
  obtain ⟨before, slots, after, rows⟩ := reachable_slots reachable
  refine ⟨rows.cursor, fun base based slot inside => ?_, room⟩
  obtain ⟨rfl, -, count⟩ := rows.slots based
  have row : slotRow slots = slotRow (slots.take slot) ++ slotRow (slots.drop slot) := by
    rw [← slotRow_append, List.take_append_drop]
  rw [rows.data, row, String.append_assoc]
  refine cutsAt_right _ ⟨slotRow (slots.take slot), slotRow (slots.drop slot) ++ laidOut after,
    String.append_assoc, ?_⟩
  rw [slotRow_size, List.length_take, count, Nat.min_eq_left inside]

theorem InOrder.ringed {p : StringPool} (order : p.InOrder) (absent : p.ringBase = none) :
    p.ringed.InOrder := by
  have room : p.size + ringBytes ≤ offsetLimit := by
    have room := order.room
    rwa [absent] at room
  refine ⟨order.cursor, ?_, room⟩
  rintro base ⟨⟩ slot inside
  have blank : nuls ringBytes = nuls (slot * slotBytes) ++ nuls (ringBytes - slot * slotBytes) := by
    have within : slot * slotBytes ≤ ringBytes := Nat.mul_le_mul_right _ inside
    rw [← nuls_add, Nat.add_sub_cancel' within]
  refine cutsAt_right p.data ⟨nuls (slot * slotBytes), _, blank, nuls_size _⟩

theorem temporary?_inOrder {p : StringPool} (order : p.InOrder) (text : String) :
    ∃ id p', p.temporary? text = some (id, p') ∧ p'.InOrder := by
  cases filled : (untilNul text.toSlice).isEmpty with
  | true => exact ⟨_, p, temporary?_empty filled, order⟩
  | false =>
      have written {q : StringPool} {base : Nat} (order : q.InOrder) (based : q.ringBase = some base) :
          ∃ id p', q.temporary? text = some (id, p') ∧ p'.InOrder := by
        have cuts := order.slots base based
        have room : base + ringBytes ≤ offsetLimit := by
          have room := order.room
          rwa [based] at room
        have next : base + q.cursor * slotBytes + slotBytes = base + (q.cursor + 1) * slotBytes := by
          rw [Nat.succ_mul, Nat.add_assoc]
        -- The slot lies between two of the boundaries.
        obtain ⟨before, slot, after, parts, start, extent⟩ :=
          cutsAt_part (cuts q.cursor (Nat.le_of_lt order.cursor)) (next ▸ cuts (q.cursor + 1) order.cursor)
        have replaced := replaceBytes?_part parts (slotText (untilNul text.toSlice))
        rw [start, extent] at replaced
        have named : base + q.cursor * slotBytes < offsetLimit := by
          have inside : q.cursor * 128 < 16 * 128 := Nat.mul_lt_mul_of_pos_right order.cursor (by decide)
          have room : base + 16 * 128 ≤ offsetLimit := room
          change base + q.cursor * 128 < offsetLimit
          omega
        refine ⟨.ofNat (base + q.cursor * slotBytes), { q with
          data := before ++ slotText (untilNul text.toSlice) ++ after
          cursor := (q.cursor + 1) % ringSlots }, ?_, Nat.mod_lt _ (by decide), ?_, ?_⟩
        · simp [temporary?, filled, withRing?, based, replaced, named]
        · intro base' based' slot' inside
          obtain rfl : base = base' := Option.some.inj (based.symm.trans based')
          have cut := cuts slot' inside
          rw [parts] at cut
          refine cutsAt_replaced ((slotText_size _).trans extent.symm) cut ?_
          -- Another slot's end lies before this slot or behind it.
          rw [start, extent]
          rcases Nat.lt_or_ge q.cursor slot' with later | sooner
          · have ends : (q.cursor + 1) * slotBytes ≤ slot' * slotBytes := Nat.mul_le_mul_right _ later
            rw [Nat.succ_mul] at ends
            omega
          · have starts : slot' * slotBytes ≤ q.cursor * slotBytes := Nat.mul_le_mul_right _ sooner
            omega
        · rw [based]
          exact room
      cases based : p.ringBase with
      | some base => exact written order based
      | none =>
          have small : p.size < offsetLimit := by
            have room := order.room
            rw [based] at room
            exact Nat.lt_of_lt_of_le (Nat.lt_add_of_pos_right (by decide)) room
          rw [temporary?_ringed based small filled]
          exact written (order.ringed based) rfl

end EntityMachine.StringPool
