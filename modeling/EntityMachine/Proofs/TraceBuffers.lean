import EntityMachine.Trace
import Mathlib.Data.List.DropRight

/-!
Trace buffers. Making room keeps the newest records, so a push leaves the newest of the row that it makes
longer. Whatever is pushed and cleared, the buffer holds the last of the events since the last clear, with
the numbers that their pushes were answered with.
-/
namespace EntityMachine

theorem newest_append (old new : List α) (n : Nat) :
    (old.rtake n ++ new).rtake n = (old ++ new).rtake n := by
  unfold List.rtake
  have whole : old.drop (old.length - n) ++ new = (old ++ new).drop (old.length - n) :=
    (List.drop_append_of_le_length (Nat.sub_le _ _)).symm
  rw [whole, List.drop_drop, List.length_drop, List.length_append]
  congr 1
  omega

theorem newest_length (row : List α) (n : Nat) : (row.rtake n).length = min n row.length := by
  rw [List.rtake, List.length_drop]
  omega

theorem newest_all {row : List α} {n : Nat} (fits : row.length ≤ n) : row.rtake n = row := by
  rw [List.rtake, Nat.sub_eq_zero_of_le fits, List.drop_zero]

theorem newest_map (f : α → β) (row : List α) (n : Nat) : (row.rtake n).map f = (row.map f).rtake n := by
  rw [List.rtake, List.rtake, List.map_drop, List.length_map]

namespace TraceBuffer

theorem records_size (b : TraceBuffer) : b.records.length = b.size := b.queue.length_toList

theorem toList_makeRoom (maximum : Nat) (room : 0 < maximum) (q : Queue TraceRecord) :
    (makeRoom maximum room q).toList = q.toList.rtake (maximum - 1) := by
  fun_induction makeRoom maximum room q with
  | case1 q full ih =>
      rw [ih, List.rtake, List.rtake, Queue.toList_popFront, List.length_tail, List.drop_tail]
      congr 1
      rw [Queue.length_toList]
      omega
  | case2 q free =>
      refine (newest_all ?_).symm
      rw [Queue.length_toList]
      omega

theorem push_gives (b : TraceBuffer) (timestamp : UInt64) (event : TraceEvent) :
    ∃ left, b.push timestamp event = (b.next, left) ∧ left.next = b.next + 1 ∧ left.maximum = b.maximum ∧
      left.records = (b.records ++ [TraceRecord.mk b.next timestamp event]).rtake b.maximum := by
  simp only [push]
  split
  next empty =>
    refine ⟨_, rfl, rfl, rfl, ?_⟩
    have nothing : b.records = [] := by
      rw [← List.length_eq_zero_iff, records_size]
      exact Nat.le_zero.mp (empty ▸ b.bounded)
    exact nothing.trans (empty ▸ (List.rtake_zero _).symm)
  next kept =>
    refine ⟨_, rfl, rfl, rfl, ?_⟩
    have room := Nat.pos_of_ne_zero kept
    rw [records, Queue.toList_pushBack, toList_makeRoom, ← Nat.sub_add_cancel room, List.rtake_concat_succ]
    rfl

theorem recent_newest (b : TraceBuffer) (count : Nat) : b.recent count = b.records.rtake count := by
  rw [List.rtake, records_size, recent]

/-! ## Histories -/

inductive Request where
  | push (timestamp : UInt64) (event : TraceEvent)
  | clear

def Request.pushed? : Request → Option (UInt64 × TraceEvent)
  | push timestamp event => some (timestamp, event)
  | clear => none

def pushed (history : List Request) : List (UInt64 × TraceEvent) := history.filterMap Request.pushed?

/-- What is pushed after the last clear. -/
def pushedLast (history : List Request) : List (UInt64 × TraceEvent) :=
  pushed (history.rtakeWhile fun request => request.pushed?.isSome)

/-- One more request to the buffer that was left. The numbers are those that pushes were answered with. -/
def serve (left : List UInt64 × TraceBuffer) : Request → List UInt64 × TraceBuffer
  | .push timestamp event =>
      let (id, b) := left.2.push timestamp event
      (left.1 ++ [id], b)
  | .clear => (left.1, left.2.clear)

def serveAll (maximum : Nat) (history : List Request) : List UInt64 × TraceBuffer :=
  history.foldl serve ([], empty maximum)

def stamped (first : Nat) (events : List (UInt64 × TraceEvent)) : List TraceRecord :=
  (events.zipIdx first).map fun ((timestamp, event), id) => { id := .ofNat id, timestamp, event }

theorem stamped_events (first : Nat) (events : List (UInt64 × TraceEvent)) :
    (stamped first events).map (fun r => (r.timestamp, r.event)) = events := by
  rw [stamped, List.map_map]
  exact List.zipIdx_map_fst first events

theorem stamped_ids (first : Nat) (events : List (UInt64 × TraceEvent)) :
    (stamped first events).map (·.id) = (List.range' first events.length).map UInt64.ofNat := by
  rw [stamped, List.map_map, ← List.zipIdx_map_snd first events, List.map_map]
  rfl

theorem stamped_push (first : Nat) (events : List (UInt64 × TraceEvent)) (timestamp : UInt64)
    (event : TraceEvent) :
    stamped first (events ++ [(timestamp, event)]) =
      stamped first events ++ [{ id := .ofNat (first + events.length), timestamp, event }] := by
  rw [stamped, List.zipIdx_append, List.map_append]
  rfl

/-- What a history leaves: the numbers go through from zero, up to the width of a word, and what is held is the
newest of the records since the last clear. -/
structure Leaves (maximum : Nat) (history : List Request) (left : List UInt64 × TraceBuffer) : Prop where
  answers : left.1 = (List.range (pushed history).length).map UInt64.ofNat
  next : left.2.next = .ofNat (pushed history).length
  bound : left.2.maximum = maximum
  records : ∃ first, (pushed history).length = first + (pushedLast history).length ∧
    left.2.records = (stamped first (pushedLast history)).rtake maximum

theorem empty_leaves (maximum : Nat) : Leaves maximum [] ([], empty maximum) where
  answers := rfl
  next := rfl
  bound := rfl
  records := ⟨0, rfl, (List.rtake_nil maximum).symm⟩

theorem Leaves.push {maximum : Nat} {history : List Request} {left : List UInt64 × TraceBuffer}
    (leaves : Leaves maximum history left) (timestamp : UInt64) (event : TraceEvent) :
    Leaves maximum (history ++ [.push timestamp event]) (serve left (.push timestamp event)) := by
  obtain ⟨after, pushes, next, bound, records⟩ := push_gives left.2 timestamp event
  obtain ⟨first, last, held⟩ := leaves.records
  have serves : serve left (.push timestamp event) = (left.1 ++ [left.2.next], after) := by
    rw [serve, pushes]
  have count : (pushed (history ++ [.push timestamp event])).length = (pushed history).length + 1 := by
    rw [pushed, List.filterMap_append, List.length_append]
    rfl
  have later : pushedLast (history ++ [.push timestamp event]) = pushedLast history ++ [(timestamp, event)] := by
    rw [pushedLast, List.rtakeWhile_concat_pos _ _ _ rfl, pushed, List.filterMap_append]
    rfl
  rw [serves]
  refine ⟨?_, ?_, bound.trans leaves.bound, first, ?_, ?_⟩
  · rw [count, List.range_succ, List.map_append, ← leaves.answers, List.map_singleton, ← leaves.next]
  · rw [count, UInt64.ofNat_add, ← leaves.next]
    exact next
  · rw [count, later, List.length_append, last]
    rfl
  · -- What was dropped before is dropped from the longer row as well.
    rw [later, stamped_push, ← last, ← newest_append, ← held, ← leaves.bound, ← leaves.next]
    exact records

theorem Leaves.clear {maximum : Nat} {history : List Request} {left : List UInt64 × TraceBuffer}
    (leaves : Leaves maximum history left) : Leaves maximum (history ++ [.clear]) (serve left .clear) := by
  have all : pushed (history ++ [.clear]) = pushed history := by
    rw [pushed, List.filterMap_append]
    exact List.append_nil _
  have none : pushedLast (history ++ [.clear]) = [] := by
    rw [pushedLast, List.rtakeWhile_concat_neg _ _ _ Bool.false_ne_true]
    rfl
  refine ⟨?_, ?_, leaves.bound, (pushed history).length, ?_, ?_⟩
  · rw [all]
    exact leaves.answers
  · rw [all]
    exact leaves.next
  · rw [all, none]
    rfl
  · rw [none]
    exact (List.rtake_nil maximum).symm

theorem serveAll_leaves (maximum : Nat) (history : List Request) :
    Leaves maximum history (serveAll maximum history) := by
  -- From the end, where the last clear is to be found.
  induction history using List.reverseRecOn with
  | nil => exact empty_leaves maximum
  | append_singleton history request ih =>
      rw [serveAll, List.foldl_append]
      cases request with
      | push timestamp event => exact ih.push timestamp event
      | clear => exact ih.clear

/-- The buffer holds the last of what was pushed since the last clear, up to its maximum, with consecutive
numbers that end at the last one given. Numbers are words of 64 bits. -/
structure ShowsNewest (maximum : Nat) (history : List Request) (b : TraceBuffer) : Prop where
  next : b.next = .ofNat (pushed history).length
  size : b.size = min maximum (pushedLast history).length
  events : b.records.map (fun r => (r.timestamp, r.event)) = (pushedLast history).rtake maximum
  ids : b.records.map (·.id) =
    (List.range' ((pushed history).length - b.size) b.size).map UInt64.ofNat

theorem Leaves.shows {maximum : Nat} {history : List Request} {left : List UInt64 × TraceBuffer}
    (leaves : Leaves maximum history left) : ShowsNewest maximum history left.2 := by
  obtain ⟨first, last, held⟩ := leaves.records
  have events : left.2.records.map (fun r => (r.timestamp, r.event)) = (pushedLast history).rtake maximum := by
    rw [held, newest_map, stamped_events]
  have size : left.2.size = min maximum (pushedLast history).length := by
    have count := congrArg List.length events
    rwa [List.length_map, records_size, newest_length] at count
  refine ⟨leaves.next, size, events, ?_⟩
  rw [held, newest_map, stamped_ids, ← newest_map, List.rtake, List.length_range', List.drop_range']
  congr 2 <;> omega

/-- Whatever is pushed and cleared: pushes are answered with 0, 1, 2 and so on, also after a clear and where
nothing is kept, the buffer holds the newest, and what is asked of it is the end of what it holds, or all of
one kind in the same order. -/
theorem buffer_shows_newest (maximum : Nat) (history : List Request) :
    ∃ b, serveAll maximum history = ((List.range (pushed history).length).map UInt64.ofNat, b) ∧
      ShowsNewest maximum history b ∧
      (∀ count, b.recent count = b.records.rtake count ∧ (b.recent count).length = min count b.size) ∧
      ∀ kind, b.ofKind kind = b.records.filter fun r => r.event.kind = kind := by
  have leaves := serveAll_leaves maximum history
  refine ⟨(serveAll maximum history).2, Prod.ext leaves.answers rfl, leaves.shows, fun count => ?_, fun _ => rfl⟩
  have newest := recent_newest (serveAll maximum history).2 count
  refine ⟨newest, ?_⟩
  rw [newest, newest_length, records_size]

example :
    let event := TraceEvent.native 1 "print"
    let (answers, b) := serveAll 2 [.push 5 event, .clear, .push 6 event, .push 7 event, .push 8 event]
    answers = [0, 1, 2, 3] ∧ b.records.map (·.id) = [2, 3] := by cbv

end TraceBuffer

namespace Tracer

def heard (t : Tracer) : List TraceEvent := t.buffer.records.map TraceRecord.event

theorem record_config (t : Tracer) (event : TraceEvent) : (t.record event).config = t.config := by
  unfold record
  split <;> rfl

theorem record_maximum (t : Tracer) (event : TraceEvent) :
    (t.record event).buffer.maximum = t.buffer.maximum := by
  unfold record
  split
  · obtain ⟨_, pushes, -, bound, -⟩ := t.buffer.push_gives 0 event
    rw [pushes]
    exact bound
  · rfl

theorem heard_record {t : Tracer} {event : TraceEvent} (wanted : t.wants event.kind = true) :
    (t.record event).heard = (t.heard ++ [event]).rtake t.buffer.maximum := by
  obtain ⟨_, pushes, -, -, records⟩ := t.buffer.push_gives 0 event
  rw [record, if_pos wanted, heard, pushes, records, newest_map, List.map_append]
  rfl

theorem heard_records {t : Tracer} (wanted : ∀ kind, t.wants kind = true) (events : List TraceEvent) :
    (events.foldl record t).heard = (t.heard ++ events).rtake t.buffer.maximum := by
  induction events generalizing t with
  | nil =>
      have fits : t.heard.length ≤ t.buffer.maximum := by
        rw [heard, List.length_map, TraceBuffer.records_size]
        exact t.buffer.bounded
      rw [List.append_nil, List.foldl_nil, newest_all fits]
  | cons event rest ih =>
      have still (kind : String) : (t.record event).wants kind = true := by
        rw [wants, record_config]
        exact wanted kind
      rw [List.foldl_cons, ih still, record_maximum, heard_record (wanted _), newest_append, List.append_assoc]
      rfl

end Tracer
end EntityMachine
