import IamRust.L0Core.Paging
import IamRust.L3Service.System

/-!
# The event log and cursor paging

In every reachable store the log carries the cursors 1, 2, ..., `cursor`
(`reachable_numbered`), because every operation extends it by `appendEvent`
only. A client that pages with `sync` from any cursor therefore sees each event
addressed to it above that cursor exactly once, in order, whatever the page
limit (`catchUp_exact`).
-/
namespace IamRust

open Core

/-! ## Cursors -/

/-- Below the largest cursor nothing saturates: the cursors count up from `c`. -/
theorem Numbered.cursors {c c' : Nat} {es : List UserEvent} (h : Numbered c es c')
    (hc : c' < u64Max) :
    es.map (·.event.cursor) = List.range' (c + 1) es.length ∧ c' = c + es.length := by
  induction es generalizing c with
  | nil => exact ⟨rfl, h⟩
  | cons e es ih =>
    obtain ⟨he, hes⟩ := h
    obtain ⟨hmap, hlen⟩ := ih hes
    have hlt : c < u64Max := by
      have : saturatingSucc c = min (c + 1) u64Max := rfl
      omega
    rw [saturatingSucc_of_lt hlt] at he hmap hlen
    constructor
    · simp [he, hmap, List.range'_succ]
    · simp only [List.length_cons]; omega

theorem Numbered.mono {c c' : Nat} {es : List UserEvent} (h : Numbered c es c')
    (hc : c ≤ u64Max) : c ≤ c' ∧ c' ≤ u64Max := by
  induction es generalizing c with
  | nil => exact ⟨Nat.le_of_eq h.symm, h ▸ hc⟩
  | cons e es ih =>
    have hs : saturatingSucc c ≤ u64Max := Nat.min_le_right _ _
    have := ih h.2 hs
    have : c ≤ saturatingSucc c := by unfold saturatingSucc; omega
    omega

theorem Numbered.increasing {c c' : Nat} {es : List UserEvent} (h : Numbered c es c')
    (hc : c' < u64Max) : Paging.Increasing (·.event.cursor) es := by
  have hlt : (List.range' (c + 1) es.length).Pairwise (· < ·) := List.pairwise_lt_range'
  rw [← (h.cursors hc).1] at hlt
  exact List.pairwise_map.mp hlt

/-- The log invariant: `cursor` numbers all events of the log. -/
theorem numbered_inductive (env : Env) :
    (service env).Inductive fun w => Numbered 0 w.events w.cursor where
  init w h := by subst h; rfl
  step w op w' hw h := by
    obtain ⟨new, he, hn⟩ := ((op.evolves env).runs h).log
    rw [he]
    exact hw.append hn

theorem reachable_numbered {env : Env} {w : World} (h : (service env).Reachable w) :
    Numbered 0 w.events w.cursor := (numbered_inductive env).reachable h

/-! ## Pages -/

/-- The events addressed to the user. -/
def addressed (s : Store) (actor : UserId) : List SyncEvent :=
  (s.events.filter fun entry => entry.addressedTo actor).map (·.event)

theorem eventsAfter_eq_above (s : Store) (actor : UserId) (after : Nat) :
    eventsAfter s actor after = Paging.above (·.cursor) after (addressed s actor) := by
  simp [eventsAfter, addressed, Paging.above, List.filter_map, List.filter_filter,
    Function.comp_def]

theorem addressed_increasing {s : Store} (h : Paging.Increasing (·.event.cursor) s.events)
    (actor : UserId) : Paging.Increasing (·.cursor) (addressed s actor) :=
  List.pairwise_map.mpr (List.Pairwise.filter _ h)

/-- The page size: the limit asked for, between 1 and `MAX_SYNC_PAGE`. -/
def pageSize (limit : Nat) : Nat := max 1 (min limit maxSyncPage)

theorem pageSize_pos (limit : Nat) : 0 < pageSize limit := Nat.le_max_left ..

section
variable {s : Store} {actor : UserId} {after limit : Nat}

theorem sync_events : (sync s actor after limit).events =
    (eventsAfter s actor after).take (pageSize limit) := by
  show ((eventsAfter s actor after).take (pageSize limit + 1)).take (pageSize limit) = _
  rw [List.take_take, Nat.min_eq_left (Nat.le_succ _)]

theorem sync_hasMore : (sync s actor after limit).hasMore = true ↔
    pageSize limit < (eventsAfter s actor after).length := by
  simp only [sync, pageSize, List.length_take, decide_eq_true_eq]
  omega

/-- `next_cursor` is where handing over the page's events moves the cursor anyway. -/
theorem sync_nextCursor (h : Paging.Increasing (·.event.cursor) s.events) :
    (sync s actor after limit).nextCursor =
      Paging.advance (·.cursor) after (sync s actor after limit).events := by
  have hinc := (addressed_increasing h actor).above after
  rw [sync_events, eventsAfter_eq_above]
  rw [Paging.advance_eq_lastKey (hinc.sublist (List.take_sublist ..))
    fun a ha => (Paging.mem_above.mp (List.mem_of_mem_take ha)).2]
  rw [← eventsAfter_eq_above, ← sync_events]
  rfl

end

/-! ## The client's loop -/

/-- The cursor after a page: the events move it one by one, then `next_cursor`. -/
def SyncResponse.cursorFrom (response : SyncResponse) (cursor : Nat) : Nat :=
  max (Paging.advance (·.cursor) cursor response.events) response.nextCursor

/-- The events handed over and the final cursor; `none` when the fuel is used up.
mirrors apps/desktop/src/realtime.rs:349-371 -/
def catchUp (fetch : Nat → SyncResponse) : Nat → Nat → Option (List SyncEvent × Nat)
  | 0, _ => none
  | fuel + 1, cursor =>
    let response := fetch cursor
    let cursor := response.cursorFrom cursor
    if response.hasMore then
      (catchUp fetch fuel cursor).map fun rest => (response.events ++ rest.1, rest.2)
    else some (response.events, cursor)

theorem sync_cursorFrom {s : Store} (h : Paging.Increasing (·.event.cursor) s.events)
    (actor : UserId) (after limit : Nat) :
    (sync s actor after limit).cursorFrom after =
      Paging.advance (·.cursor) after (sync s actor after limit).events := by
  rw [SyncResponse.cursorFrom, sync_nextCursor h, Nat.max_self]

/-- After a page the events above the cursor are those the page left out. -/
theorem eventsAfter_cursorFrom {s : Store} (h : Paging.Increasing (·.event.cursor) s.events)
    (actor : UserId) (after limit : Nat) :
    eventsAfter s actor ((sync s actor after limit).cursorFrom after) =
      (eventsAfter s actor after).drop (pageSize limit) := by
  rw [sync_cursorFrom h, sync_events, eventsAfter_eq_above, eventsAfter_eq_above]
  exact Paging.above_advance_take (addressed_increasing h actor) after _

/-- More fuel changes nothing. -/
theorem catchUp_mono {fetch : Nat → SyncResponse} {fuel fuel' cursor : Nat}
    {r : List SyncEvent × Nat} (hf : fuel ≤ fuel') (h : catchUp fetch fuel cursor = some r) :
    catchUp fetch fuel' cursor = some r := by
  induction fuel generalizing fuel' cursor r with
  | zero => simp [catchUp] at h
  | succ fuel ih =>
    obtain ⟨n, rfl⟩ : ∃ n, fuel' = n + 1 := ⟨fuel' - 1, by omega⟩
    unfold catchUp at h ⊢
    by_cases hm : (fetch cursor).hasMore
    · simp only [hm, if_true, Option.map_eq_some_iff] at h ⊢
      obtain ⟨rest, hrest, rfl⟩ := h
      exact ⟨rest, ih (by omega) hrest, rfl⟩
    · simpa [hm] using h

/-- One page of fuel for each event above the cursor, and one, is enough. -/
theorem catchUp_sync {s : Store} (h : Paging.Increasing (·.event.cursor) s.events)
    (actor : UserId) (limit : Nat) : ∀ (fuel cursor : Nat),
    (eventsAfter s actor cursor).length < fuel →
    ∃ last, catchUp (fun after => sync s actor after limit) fuel cursor =
      some (eventsAfter s actor cursor, last) ∧ eventsAfter s actor last = []
  | 0, _, hf => absurd hf (Nat.not_lt_zero _)
  | fuel + 1, cursor, hf => by
    have hpos := pageSize_pos limit
    have hrest := eventsAfter_cursorFrom h actor cursor limit
    unfold catchUp
    by_cases hm : (sync s actor cursor limit).hasMore
    · have hlt := sync_hasMore.mp hm
      have hshort : (eventsAfter s actor
          ((sync s actor cursor limit).cursorFrom cursor)).length < fuel := by
        rw [hrest, List.length_drop]; omega
      obtain ⟨last, hrun, hdone⟩ := catchUp_sync h actor limit fuel _ hshort
      refine ⟨last, ?_, hdone⟩
      simp only [hm, if_true, hrun, Option.map_some, sync_events, hrest, List.take_append_drop]
    · have hle : (eventsAfter s actor cursor).length ≤ pageSize limit :=
        Nat.le_of_not_lt fun hlt => hm (sync_hasMore.mpr hlt)
      refine ⟨_, ?_, hrest.trans (List.drop_eq_nil_of_le hle)⟩
      simp only [hm, sync_events, List.take_of_length_le hle]
      rfl

/-! ## Main result -/

/-- From every cursor and with every limit the loop ends, and hands over the events addressed to
the actor above the cursor: those of the log, in its order, each once. -/
def PagesExactly (s : Store) : Prop :=
  ∀ actor start limit, ∃ enough last, ∀ fuel, enough ≤ fuel →
    catchUp (fun after => sync s actor after limit) fuel start =
      some ((s.events.filter fun e => decide (start < e.event.cursor) && e.addressedTo actor).map
        (·.event), last)

/-- **Cursor paging is exact and terminates.** While cursors are below the largest one, the log is
strictly increasing and ends at `cursor`, and the client's loop returns the events addressed to
the actor above the start, for every limit. -/
theorem catchUp_exact (env : Env) (w : World) (hr : (service env).Reachable w)
    (hc : w.cursor < u64Max) :
    Paging.Increasing (·.event.cursor) w.events ∧
    (w.events.getLast?.map (·.event.cursor)).getD 0 = w.cursor ∧
    PagesExactly w.toStore := by
  have hn := reachable_numbered hr
  have hinc := hn.increasing hc
  obtain ⟨hmap, hlen⟩ := hn.cursors hc
  refine ⟨hinc, ?_, fun actor start limit => ?_⟩
  · rw [← List.getLast?_map, hmap, hlen]
    cases w.events.length <;> simp [List.getLast?_range']
  · obtain ⟨last, hrun, -⟩ := catchUp_sync hinc actor limit
      ((eventsAfter w.toStore actor start).length + 1) start (Nat.lt_succ_self _)
    exact ⟨_, last, fun fuel hf => catchUp_mono hf hrun⟩

/-- Two events, one of them for user 7. -/
theorem catchUp_exact_two_events : ∃ w, (service Env.numbered).Reachable w ∧ w.cursor = 2 ∧
    PagesExactly w.toStore := by
  obtain ⟨w, hw, hc⟩ := reaches Env.numbered [.markAllRead 7 0, .markAllRead 8 0]
    (fun w => w.cursor == 2) (by decide +kernel)
  have hc : w.cursor = 2 := by simpa using hc
  exact ⟨w, reachable_of_run hw, hc, (catchUp_exact Env.numbered w (reachable_of_run hw)
    (by rw [hc]; decide)).2.2⟩

end IamRust
