import Mathlib.Data.Set.List
import RndRust.Perception.Sqlite

/-! What a query of the event store returns, in terms of the events that were stored. -/
namespace RndRust.Perception.Storage
open Lib

variable {Uuid Real : Type} {codecs : TextCodecs Uuid} {event : Event Uuid Real} {events stored : List (Event Uuid Real)}
  {batches : List (List (Event Uuid Real))} {table : EventTable Real} {filter : EventFilter}

namespace EventFilter

/-- The filter, on values. -/
def accepts (filter : EventFilter) (event : Event Uuid Real) : Bool :=
  filter.kind.all (event.detectionKind = ·) && filter.label.all (event.label = some ·) &&
    filter.trackId.all (event.trackId = some ·) && filter.after.all (· < event.timestamp) &&
    filter.before.all (event.timestamp < ·)

def cut {α : Type} (filter : EventFilter) (list : List α) : List α :=
  match filter.limit with
  | none => list
  | some limit => list.take limit.toNat

/-- The accepted events, the newest first, as many as the limit allows. -/
def Answers (filter : EventFilter) (stored result : List (Event Uuid Real)) : Prop :=
  ∃ ordered, ordered.Perm (stored.filter filter.accepts) ∧
    ordered.Pairwise (fun event later => later.timestamp ≤ event.timestamp) ∧ result = filter.cut ordered

end EventFilter

/-- No id of the batch is there, and none comes twice. -/
def Fresh (stored batch : List (Event Uuid Real)) : Prop :=
  (batch.map Event.id).Nodup ∧ ∀ event ∈ batch, ∀ old ∈ stored, old.id ≠ event.id

section Abstract

variable [DecidableEq Uuid]

instance (stored batch : List (Event Uuid Real)) : Decidable (Fresh stored batch) :=
  inferInstanceAs (Decidable ((batch.map Event.id).Nodup ∧ ∀ event ∈ batch, ∀ old ∈ stored, old.id ≠ event.id))

/-- A batch is stored as a whole or not at all. -/
def accept (stored batch : List (Event Uuid Real)) : List (Event Uuid Real) :=
  if Fresh stored batch then stored ++ batch else stored

/-- The events that a history of batches has stored. -/
def storedAfter (batches : List (List (Event Uuid Real))) : List (Event Uuid Real) := batches.foldl accept []

end Abstract

section Rows

theorem parseDetectionKind_kindText {kind : DetectionKind} : parseDetectionKind (kindText kind) = .ok kind := by
  cases kind <;> rfl

theorem kindText_inj {kind kind' : DetectionKind} : kindText kind = kindText kind' ↔ kind = kind' := by
  constructor
  · intro same
    have read := congrArg parseDetectionKind same
    rw [parseDetectionKind_kindText, parseDetectionKind_kindText] at read
    exact Except.ok.inj read
  · rintro rfl
    rfl

theorem toInt64_inj {m n : UInt64} : m.toInt64 = n.toInt64 ↔ m = n := by
  constructor
  · intro same
    have back := congrArg Int64.toUInt64 same
    rwa [UInt64.toUInt64_toInt64, UInt64.toUInt64_toInt64] at back
  · rintro rfl
    rfl

theorem uuidText_inj {id id' : Uuid} : codecs.uuidText id = codecs.uuidText id' ↔ id = id' := by
  constructor
  · intro same
    have read := congrArg codecs.parseUuid same
    rw [codecs.parseUuid_uuidText, codecs.parseUuid_uuidText] at read
    exact Option.some.inj read
  · rintro rfl
    rfl

/-- Every field is read as it was stored. -/
theorem readRow_rowOf : readRow codecs (rowOf codecs event) = .ok event := by
  have ids : (event.trackId.map UInt64.toInt64).map Int64.toUInt64 = event.trackId := by
    cases event.trackId <;> simp
  unfold readRow rowOf
  dsimp only
  rw [codecs.parseUuid_uuidText, codecs.parseRfc3339_toRfc3339, parseDetectionKind_kindText, ids,
    UInt64.toUInt64_toInt64]
  rfl

theorem mapM_readRow : (events.map (rowOf codecs)).mapM (readRow codecs) = .ok events := by
  induction events with
  | nil => rfl
  | cons event events ih =>
    rw [List.map_cons, List.mapM_cons, readRow_rowOf, ok_bind, ih]
    rfl

end Rows

section Storing

/-- The rows are those of the events. -/
def EventTable.Keeps (codecs : TextCodecs Uuid) (table : EventTable Real) (stored : List (Event Uuid Real)) : Prop :=
  table.rows = stored.map (rowOf codecs)

theorem EventTable.Keeps.mem_ids (keeps : table.Keeps codecs stored) :
    (rowOf codecs event).id ∈ table.rows.map Row.id ↔ event.id ∈ stored.map Event.id := by
  rw [keeps, List.map_map, List.mem_map, List.mem_map]
  simp only [Function.comp_apply, rowOf, uuidText_inj]

theorem EventTable.Keeps.nodup (keeps : table.Keeps codecs stored) : (stored.map Event.id).Nodup := by
  have distinct := table.distinct
  rw [keeps, List.map_map] at distinct
  have ids : (stored.map Event.id).map codecs.uuidText = stored.map (Row.id ∘ rowOf codecs) := by
    rw [List.map_map]
    rfl
  rw [← ids] at distinct
  exact distinct.of_map

theorem EventTable.Keeps.insert (keeps : table.Keeps codecs stored) (fresh : event.id ∉ stored.map Event.id) :
    ∃ t, table.insert (rowOf codecs event) = .ok t ∧ t.Keeps codecs (stored ++ [event]) := by
  refine ⟨_, dif_pos (keeps.mem_ids.not.mpr fresh), ?_⟩
  change table.rows ++ [rowOf codecs event] = _
  rw [keeps, List.map_append]
  rfl

theorem EventTable.Keeps.insert_taken (keeps : table.Keeps codecs stored) (taken : event.id ∈ stored.map Event.id) :
    table.insert (rowOf codecs event) = .error .database :=
  dif_neg (not_not.mpr (keeps.mem_ids.mpr taken))

/-- A transaction stores all of its events, or fails over an id that is there when it comes to it. -/
theorem EventTable.Keeps.insertAll (events : List (Event Uuid Real)) (keeps : table.Keeps codecs stored) :
    (((stored ++ events).map Event.id).Nodup → ∃ t, events.foldlM (fun table event =>
      table.insert (rowOf codecs event)) table = .ok t ∧ t.Keeps codecs (stored ++ events)) ∧
    (¬ ((stored ++ events).map Event.id).Nodup → events.foldlM (fun table event =>
      table.insert (rowOf codecs event)) table = .error .database) := by
  induction events generalizing table stored with
  | nil => exact ⟨fun _ => ⟨table, rfl, by rwa [List.append_nil]⟩, fun twice => by
      rw [List.append_nil] at twice
      exact absurd keeps.nodup twice⟩
  | cons event events ih =>
    rw [List.foldlM_cons, List.append_cons]
    by_cases taken : event.id ∈ stored.map Event.id
    · rw [keeps.insert_taken taken]
      refine ⟨fun distinct => ?_, fun _ => rfl⟩
      rw [List.map_append, List.map_append] at distinct
      exact absurd taken (by simpa using List.disjoint_of_nodup_append (distinct.sublist (List.sublist_append_left _ _)))
    · obtain ⟨t, inserted, kept⟩ := keeps.insert taken
      rw [inserted]
      exact ih kept

theorem EventTable.Keeps.fresh_iff (keeps : table.Keeps codecs stored) :
    Fresh stored events ↔ ((stored ++ events).map Event.id).Nodup := by
  rw [List.map_append, List.nodup_append, Fresh]
  constructor
  · rintro ⟨once, other⟩
    refine ⟨keeps.nodup, once, fun id old id' new => ?_⟩
    obtain ⟨before, listed, rfl⟩ := List.mem_map.mp old
    obtain ⟨event, added, rfl⟩ := List.mem_map.mp new
    exact other event added before listed
  · rintro ⟨-, once, other⟩
    exact ⟨once, fun event added before listed =>
      other _ (List.mem_map_of_mem listed) _ (List.mem_map_of_mem added)⟩

/-- A batch is stored when its ids are new, and fails otherwise. -/
theorem EventTable.Keeps.store (keeps : table.Keeps codecs stored) :
    (Fresh stored events → ∃ t, storeEvents codecs table events = .ok t ∧ t.Keeps codecs (stored ++ events)) ∧
    (¬ Fresh stored events → storeEvents codecs table events = .error .database) := by
  rw [keeps.fresh_iff]
  have all := keeps.insertAll events
  cases events with
  | nil => exact all
  | cons event events => exact all

/-- After any history the table has the rows of what was stored. -/
theorem tableAfter_keeps [DecidableEq Uuid] : (tableAfter codecs batches).Keeps codecs (storedAfter batches) := by
  have start : ({} : EventTable Real).Keeps codecs [] := rfl
  unfold tableAfter storedAfter
  generalize ({} : EventTable Real) = table at start ⊢
  generalize ([] : List (Event Uuid Real)) = stored at start ⊢
  induction batches generalizing table stored with
  | nil => exact start
  | cons batch batches ih =>
    rw [List.foldl_cons, List.foldl_cons]
    refine ih _ _ ?_
    by_cases fresh : Fresh stored batch
    · obtain ⟨t, done, kept⟩ := start.store.1 fresh
      rw [done, accept, if_pos fresh]
      exact kept
    · rw [start.store.2 fresh, accept, if_neg fresh]
      exact start

end Storing

section Querying

theorem toInt_limit (limit : UInt32) : limit.toUInt64.toInt64.toInt = limit.toNat := by
  have small : limit.toUInt64.toNat = limit.toNat := UInt32.toNat_toUInt64 limit
  have bits : limit.toUInt64.toInt64.toInt = limit.toUInt64.toBitVec.toInt := rfl
  have room := limit.toNat_lt
  have nat : limit.toUInt64.toBitVec.toNat = limit.toNat := small
  rw [bits, BitVec.toInt_eq_toNat_of_lt (by omega), nat]

/-- A `u32` is a limit as an `i64`, and no negative one. -/
theorem toNat_limit (limit : UInt32) : ¬ limit.toUInt64.toInt64 < 0 ∧ limit.toUInt64.toInt64.toNatClampNeg = limit.toNat := by
  have value := toInt_limit limit
  refine ⟨?_, ?_⟩
  · rw [Int64.lt_iff_toInt_lt, value]
    exact not_lt.mpr (Int.natCast_nonneg _)
  · change limit.toUInt64.toInt64.toInt.toNat = _
    rw [value]
    rfl

/-- The conditions and the values bound to them say what the filter says. -/
theorem selects_buildQuery : (buildQuery filter).selects Row.cell (rowOf codecs event) ↔ filter.accepts event := by
  have none : Select.selects ({} : Select Column Text) Row.cell (rowOf codecs event) := rfl
  have kind : (∀ v ∈ filter.kind.map fun kind => SqlValue.text (kindText kind),
      Comparison.eq.holds ((rowOf codecs event).cell .detectionKind) v) ↔ filter.kind.all (event.detectionKind = ·) := by
    cases filter.kind <;> simp [Comparison.holds, Row.cell, rowOf, kindText_inj]
  have label : (∀ v ∈ filter.label.map SqlValue.text, Comparison.eq.holds ((rowOf codecs event).cell .label) v) ↔
      filter.label.all (event.label = some ·) := by
    cases filter.label <;> cases stored : event.label <;> simp [Comparison.holds, Row.cell, rowOf, stored]
  have trackId : (∀ v ∈ filter.trackId.map fun trackId => SqlValue.integer trackId.toInt64,
      Comparison.eq.holds ((rowOf codecs event).cell .trackId) v) ↔ filter.trackId.all (event.trackId = some ·) := by
    cases filter.trackId <;> cases stored : event.trackId <;> simp [Comparison.holds, Row.cell, rowOf, stored, toInt64_inj]
  have after : (∀ v ∈ filter.after.map fun after => SqlValue.text after.toRfc3339,
      Comparison.gt.holds ((rowOf codecs event).cell .timestamp) v) ↔ filter.after.all (· < event.timestamp) := by
    cases filter.after <;>
      simp [Comparison.holds, Row.cell, rowOf, SqlValue.less, toRfc3339_strictMono.lt_iff_lt]
  have before : (∀ v ∈ filter.before.map fun before => SqlValue.text before.toRfc3339,
      Comparison.lt.holds ((rowOf codecs event).cell .timestamp) v) ↔ filter.before.all (event.timestamp < ·) := by
    cases filter.before <;>
      simp [Comparison.holds, Row.cell, rowOf, SqlValue.less, toRfc3339_strictMono.lt_iff_lt]
  unfold buildQuery EventFilter.accepts
  simp only [Select.selects_limitTo, Select.selects_filterBy, kind, label, trackId, after, before, none, true_and,
    Bool.and_eq_true]

theorem cut_buildQuery {rows : List (Row Real)} : (buildQuery filter).cut rows = some (filter.cut rows) := by
  unfold buildQuery EventFilter.cut
  cases filter.limit with
  | none => exact Select.cut_limitTo_none (by simp only [Select.limit_filterBy])
  | some limit =>
    obtain ⟨positive, same⟩ := toNat_limit limit
    rw [Option.map_some, Select.cut_limitTo, if_neg positive, same]

theorem rowOf_injective : Function.Injective (rowOf codecs : Event Uuid Real → Row Real) := by
  intro event other same
  have read : (readRow codecs (rowOf codecs event) : Except _ (Event Uuid Real)) = readRow codecs (rowOf codecs other) := by
    rw [same]
  rw [readRow_rowOf, readRow_rowOf] at read
  exact Except.ok.inj read

/-- Sorting the rows of events is sorting the events. -/
theorem exists_ordered (codecs : TextCodecs Uuid) (events : List (Event Uuid Real)) (order : NewestFirst Real) :
    ∃ ordered : List (Event Uuid Real), ordered.map (rowOf codecs) = order.sort (events.map (rowOf codecs)) ∧
      ordered.Perm events ∧ ordered.Pairwise fun event later => later.timestamp ≤ event.timestamp := by
  have perm := order.perm (events.map (rowOf codecs))
  obtain ⟨ordered, whole⟩ : order.sort (events.map (rowOf codecs)) ∈ Set.range (List.map (rowOf codecs)) := by
    rw [Set.range_list_map]
    intro row listed
    obtain ⟨event, -, same⟩ := List.mem_map.mp (perm.mem_iff.mp listed)
    exact ⟨event, same⟩
  have sorted := order.sorted (events.map (rowOf codecs))
  rw [← whole] at perm sorted
  refine ⟨ordered, whole, (List.map_perm_map_iff rowOf_injective).mp perm, ?_⟩
  rw [List.pairwise_map] at sorted
  exact sorted.imp fun le => toRfc3339_strictMono.le_iff_le.mp le

theorem EventFilter.map_cut {α β : Type} {f : α → β} {list : List α} : (filter.cut list).map f = filter.cut (list.map f) := by
  unfold EventFilter.cut
  split
  · rfl
  · exact List.map_take

theorem queryEvents_answers (keeps : table.Keeps codecs stored) (order : NewestFirst Real) :
    ∃ result, queryEvents codecs order table filter = .ok result ∧ filter.Answers stored result := by
  have selected : table.rows.filter ((buildQuery filter).selects Row.cell) =
      (stored.filter filter.accepts).map (rowOf codecs) := by
    rw [keeps, List.filter_map]
    refine congrArg _ (List.filter_congr fun event _ => ?_)
    exact Bool.eq_iff_iff.mpr selects_buildQuery
  obtain ⟨ordered, sorted, perm, newest⟩ := exists_ordered codecs (stored.filter filter.accepts) order
  refine ⟨filter.cut ordered, ?_, ordered, perm, newest, rfl⟩
  have fetched : (buildQuery filter).fetchAll Row.cell order table.rows = some ((filter.cut ordered).map (rowOf codecs)) := by
    rw [Select.fetchAll, selected, ← sorted, cut_buildQuery, EventFilter.map_cut]
  unfold queryEvents
  rw [fetched]
  exact mapM_readRow

/-- **Queries agree with the filter on values.** After any history of batches, a further batch is stored
exactly when its ids are new, and every query returns the events that were stored and that the filter
accepts, with all their fields, the newest first, as many as the limit allows. -/
theorem queries_agree [DecidableEq Uuid] (codecs : TextCodecs Uuid) (batches : List (List (Event Uuid Real))) :
    (∀ batch, (∃ table, storeEvents codecs (tableAfter codecs batches) batch = .ok table) ↔
      Fresh (storedAfter batches) batch) ∧
    ∀ (filter : EventFilter) (order : NewestFirst Real), ∃ result,
      queryEvents codecs order (tableAfter codecs batches) filter = .ok result ∧
        filter.Answers (storedAfter batches) result := by
  have keeps : (tableAfter codecs batches).Keeps codecs (storedAfter batches) := tableAfter_keeps
  refine ⟨fun batch => ⟨?_, fun fresh => ?_⟩, fun filter order => queryEvents_answers keeps order⟩
  · rintro ⟨table, done⟩
    by_contra taken
    rw [keeps.store.2 taken] at done
    cases done
  · obtain ⟨table, done, -⟩ := keeps.store.1 fresh
    exact ⟨table, done⟩

/-- Ids that are their texts, and times as they are written. -/
def plainCodecs : TextCodecs Text where
  uuidText := id
  parseUuid := some
  parseRfc3339 := readRfc3339
  parseUuid_uuidText _ := rfl
  parseRfc3339_toRfc3339 := readRfc3339_toRfc3339

/-- A car, half a second after the last minute of a leap day began. -/
def exampleEvent : Event Text ℕ where
  id := "6ba7b810-9dad-11d1-80b4-00c04fd430c8".toList
  timestamp := ⟨2024, 2, 29, 23, 59, 0, 500000000, by decide, by constructor <;> decide, by decide, by decide, by decide,
    by decide⟩
  frameNumber := 1
  trackId := some 18446744073709551615
  detectionKind := .object
  label := some "car".toList
  confidence := 9
  bbox := ⟨0, 0, 100, 100⟩
  ocrText := none
  faceIdentity := none
  faceSimilarity := none
  cropPath := none

example : exampleEvent.timestamp.toRfc3339 = "2024-02-29T23:59:00.500+00:00".toList := by decide

def exampleFilter : EventFilter := { trackId := some 18446744073709551615, limit := some 1 }

/-- The event is stored once, and found by its track. -/
theorem queries_agree_repeated :
    (¬ ∃ table, storeEvents plainCodecs (tableAfter plainCodecs [[exampleEvent]]) [exampleEvent] = .ok table) ∧
      ∃ result, queryEvents plainCodecs (.stable _) (tableAfter plainCodecs [[exampleEvent]]) exampleFilter = .ok result ∧
        exampleFilter.Answers [exampleEvent] result := by
  obtain ⟨stores, answers⟩ := queries_agree plainCodecs [[exampleEvent]]
  refine ⟨(stores [exampleEvent]).not.mpr (by decide), answers _ _⟩

end Querying

end RndRust.Perception.Storage
