import IamRust.L1Domain.Sync
import IamRust.L6Client.LocalStore

/-!
# The stored sync state refines the domain's

`SyncState` keeps every id it has accepted; `record_sync_event` keeps a row for
each of the last 50000 cursors only. What is pruned is below the cursor, so as
long as an id comes with one cursor the two answer alike.

* `Tracks`: the relation between the two, with the events so far.
* `Tracks.record`: one event keeps it, and both accept it or neither does.
* `record_refines_apply`: over every sequence of events.
-/
namespace IamRust

open Core

/-- The store after the events, each in its own transaction. -/
def recorded (events : List SyncEvent) : Cache :=
  events.foldl (fun s event => ((recordSyncEvent event).commit s).2) {}

/-- The domain's state after the events. -/
def applied (events : List SyncEvent) : SyncState := events.foldl SyncState.next {}

/-- An id comes with one cursor, and a cursor fits in its column. -/
structure WellNumbered (events : List SyncEvent) : Prop where
  ids : ∀ e ∈ events, ∀ e' ∈ events, e.id = e'.id → e.cursor = e'.cursor
  max : ∀ e ∈ events, e.cursor ≤ i64Max

/-- The store `s` and the state `d` after the events `past`. -/
structure Tracks (past : List SyncEvent) (s : Cache) (d : SyncState) : Prop where
  cursor : s.syncCursor = some (Nat.repr d.cursor)
  max : d.cursor ≤ i64Max
  rows : ∀ id c, s.seenEvents.get id = some c → id ∈ d.seen ∧ c ≤ d.cursor
  seen : ∀ id ∈ d.seen, ∃ e ∈ past, e.id = id ∧ e.cursor ≤ d.cursor

section
variable {past : List SyncEvent} {s : Cache} {d : SyncState} {event : SyncEvent}

theorem tracks_start : Tracks [] {} {} where
  cursor := rfl
  max := Nat.zero_le _
  rows id c h := by simp at h
  seen id h := by simp at h

theorem Tracks.syncCursor (h : Tracks past s d) : syncCursor s = .ok d.cursor := by
  have hmax := h.max
  unfold i64Max at hmax
  unfold IamRust.syncCursor
  rw [h.cursor, Option.getD_some, parseU64_repr (by omega)]

theorem Tracks.mono (h : Tracks past s d) : Tracks (past ++ [event]) s d where
  cursor := h.cursor
  max := h.max
  rows := h.rows
  seen id hid := by
    obtain ⟨e, he, hrest⟩ := h.seen id hid
    exact ⟨e, List.mem_append_left _ he, hrest⟩

/-- An id that is known comes with a cursor that is not ahead. -/
theorem Tracks.stale (h : Tracks past s d) (hw : WellNumbered (past ++ [event]))
    (hid : event.id ∈ d.seen) : event.cursor ≤ d.cursor := by
  obtain ⟨e, he, heq, hle⟩ := h.seen _ hid
  rw [← hw.ids e (List.mem_append_left _ he) event (by simp) heq]
  exact hle

/-- An event that is known or not ahead leaves the store as it is. -/
theorem Tracks.record_stale (h : Tracks past s d) (hle : event.cursor ≤ d.cursor) :
    (recordSyncEvent event).Runs s false s := by
  unfold recordSyncEvent
  rw [Tx.runs_get_bind]
  by_cases hrow : s.seenEvents.containsKey event.id = true
  · rw [if_pos hrow]
    exact Tx.runs_pure.mpr ⟨rfl, rfl⟩
  · rw [if_neg hrow, h.syncCursor, Tx.runs_ofExcept_bind]
    exact ⟨_, rfl, by rw [if_pos hle]; exact Tx.runs_pure.mpr ⟨rfl, rfl⟩⟩

/-- The store an accepted event leaves. -/
def LocalStore.advance (s : Cache) (event : SyncEvent) : Cache :=
  { s with
    syncCursor := some (Nat.repr event.cursor)
    seenEvents := (s.seenEvents.insert event.id event.cursor).retain fun _ cursor =>
      decide (event.cursor - 50000 ≤ cursor) }

/-- A new cursor is ahead of every row, so its insert meets no other one. -/
theorem Tracks.record_new (h : Tracks past s d) (hid : event.id ∉ d.seen)
    (hlt : d.cursor < event.cursor) (hmax : event.cursor ≤ i64Max) :
    (recordSyncEvent event).Runs s true (s.advance event) := by
  have hrow : ¬ s.seenEvents.containsKey event.id = true := by
    rw [Map.containsKey_iff]
    rintro ⟨c, hc⟩
    exact hid (h.rows _ c hc).1
  have hunique : ¬ s.seenEvents.values.any (· == event.cursor) = true := by
    simp only [List.any_eq_true, Map.mem_values, beq_iff_eq, not_exists, not_and]
    rintro c ⟨id, hc⟩ rfl
    have := (h.rows id _ hc).2
    omega
  unfold recordSyncEvent
  rw [Tx.runs_get_bind, if_neg hrow, h.syncCursor, Tx.runs_ofExcept_bind]
  refine ⟨_, rfl, ?_⟩
  rw [if_neg (by omega), Tx.runs_failIf_bind, Tx.runs_failIf_bind]
  exact ⟨by omega, hunique, rfl⟩

theorem Tracks.advance (h : Tracks past s d) (hlt : d.cursor < event.cursor)
    (hmax : event.cursor ≤ i64Max) : Tracks (past ++ [event]) (s.advance event)
      { cursor := event.cursor, seen := insert event.id d.seen } where
  cursor := rfl
  max := hmax
  rows id c hc := by
    have hc := Map.get_of_retain hc
    rw [Map.get_insert] at hc
    split at hc
    · cases hc
      exact ⟨by simp [*], Nat.le_refl _⟩
    · obtain ⟨hseen, hle⟩ := h.rows id c hc
      exact ⟨Finset.mem_insert_of_mem hseen, by dsimp only; omega⟩
  seen id hid := by
    rcases Finset.mem_insert.mp hid with rfl | hid
    · exact ⟨event, by simp, rfl, Nat.le_refl _⟩
    · obtain ⟨e, he, heq, hle⟩ := h.seen id hid
      exact ⟨e, List.mem_append_left _ he, heq, by dsimp only; omega⟩

/-- **One event.** Both accept it, or the store says `false` and neither state moves. -/
theorem Tracks.record (h : Tracks past s d) (hw : WellNumbered (past ++ [event])) :
    ∃ accepted s', (recordSyncEvent event).commit s = (.ok accepted, s') ∧
      (accepted = true ↔ ∃ d', d.apply event = .ok (true, d')) ∧
      (accepted = true → d.cursor < event.cursor ∧ (d.next event).cursor = event.cursor) ∧
      Tracks (past ++ [event]) s' (d.next event) := by
  unfold SyncState.next SyncState.apply
  by_cases hid : event.id ∈ d.seen
  · refine ⟨false, s, Tx.commit_of_runs (h.record_stale (h.stale hw hid)), ?_⟩
    simpa [hid] using h.mono
  by_cases hle : event.cursor ≤ d.cursor
  · refine ⟨false, s, Tx.commit_of_runs (h.record_stale hle), ?_⟩
    simpa [hid, hle] using h.mono
  · have hmax := hw.max event (by simp)
    refine ⟨true, _, Tx.commit_of_runs (h.record_new hid (by omega) hmax), ?_⟩
    simpa [hid, hle] using ⟨by omega, h.advance (by omega) hmax⟩

end

theorem WellNumbered.left {l l' : List SyncEvent} (h : WellNumbered (l ++ l')) :
    WellNumbered l where
  ids e he e' he' := h.ids e (List.mem_append_left _ he) e' (List.mem_append_left _ he')
  max e he := h.max e (List.mem_append_left _ he)

/-- After any events the two states are related. -/
theorem tracks_after {events : List SyncEvent} (hw : WellNumbered events) :
    Tracks events (recorded events) (applied events) := by
  induction events using List.reverseRecOn with
  | nil => exact tracks_start
  | append_singleton past event ih =>
    obtain ⟨accepted, s', hrun, -, -, htracks⟩ := (ih hw.left).record hw
    have hs : recorded (past ++ [event]) = s' := by
      simp only [recorded, List.foldl_append, List.foldl_cons, List.foldl_nil]
      exact congrArg Prod.snd hrun
    have hd : applied (past ++ [event]) = (applied past).next event := by
      simp [applied]
    rw [hs, hd]
    exact htracks

/-- The domain's cursor does not go back. -/
theorem cursor_applied_le (past events : List SyncEvent) :
    (applied past).cursor ≤ (applied (past ++ events)).cursor := by
  induction events using List.reverseRecOn with
  | nil => simp
  | append_singleton events event ih =>
    refine Nat.le_trans ih ?_
    rw [← List.append_assoc]
    simp only [applied, List.foldl_append, List.foldl_cons, List.foldl_nil]
    unfold SyncState.next SyncState.apply
    split
    · rename_i r hr
      split at hr
      · cases hr; exact Nat.le_refl _
      · split at hr
        · cases hr
        · cases hr; dsimp only at *; omega
    · exact Nat.le_refl _

/-- **The stored state refines the domain's.** Behind any events the two answer the next one
alike and show one cursor; an event accepted before is not accepted again. -/
theorem record_refines_apply (past : List SyncEvent) (event : SyncEvent)
    (hw : WellNumbered (past ++ [event])) :
    (((recordSyncEvent event).commit (recorded past)).1 = .ok true ↔
      ∃ d, (applied past).apply event = .ok (true, d)) ∧
    syncCursor (recorded (past ++ [event])) = .ok (applied (past ++ [event])).cursor ∧
    ∀ l l' e, past = l ++ e :: l' → e.id = event.id →
      ((recordSyncEvent e).commit (recorded l)).1 = .ok true →
      ((recordSyncEvent event).commit (recorded past)).1 = .ok false := by
  obtain ⟨accepted, s', hrun, hiff, hahead, -⟩ := (tracks_after hw.left).record hw
  refine ⟨by simp [hrun, ← hiff], (tracks_after hw).syncCursor, ?_⟩
  intro l l' e hpast hid hfirst
  rw [List.append_cons] at hpast
  subst hpast
  have hl : WellNumbered (l ++ [e]) := hw.left.left
  obtain ⟨_, s₁, hrun₁, -, hahead₁, -⟩ := (tracks_after hl.left).record hl
  rw [hrun₁] at hfirst
  cases hfirst
  -- the first time brought the cursor up to the event's
  have hcursor : event.cursor ≤ (applied (l ++ [e] ++ l')).cursor := by
    rw [← hw.ids e (by simp) event (by simp) hid, ← (hahead₁ rfl).2]
    refine Nat.le_trans (Nat.le_of_eq ?_) (cursor_applied_le (l ++ [e]) l')
    simp [applied]
  rw [hrun]
  cases accepted with
  | false => rfl
  | true =>
    have := (hahead rfl).1
    omega

/-- Everything was read. -/
def allReadEvent (id : Uuid) (cursor : Nat) : SyncEvent :=
  ⟨id, cursor, .readPositionUpdated, .allRead, 0⟩

/-- Event 7 is pruned by event 8, and then comes again. -/
theorem record_refines_apply_pruned :
    (recorded [allReadEvent 7 1, allReadEvent 8 60001]).seenEvents.get 7 = none ∧
    (((recordSyncEvent (allReadEvent 7 1)).commit
        (recorded [allReadEvent 7 1, allReadEvent 8 60001])).1 = .ok true ↔
      ∃ d, (applied [allReadEvent 7 1, allReadEvent 8 60001]).apply (allReadEvent 7 1) =
        .ok (true, d)) :=
  ⟨by decide +kernel, (record_refines_apply [allReadEvent 7 1, allReadEvent 8 60001]
    (allReadEvent 7 1)
    ⟨by decide, by decide⟩).1⟩

end IamRust
