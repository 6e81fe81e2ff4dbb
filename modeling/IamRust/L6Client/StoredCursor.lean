import IamRust.L6Client.Cursors
import IamRust.L6Client.KeySwitch
import IamRust.L6Client.Rendered

/-!
# The stored cursor

Two transactions write the row `sync_cursor`. `record_sync_event` compares and
advances: an event that is not ahead is refused. `cache_bootstrap` writes the
cursor of the bootstrap it was given, whatever is stored. Tasks in the
background run them in any order, each as one transaction.

* `Fenced`: the stored cursor is not below any event accepted so far.
* `stored_cursor_advances`: as long as no bootstrap is behind the stored cursor,
  the cursor does not go back and no event is accepted twice.
* `cursor_goes_back`: one that is.
-/
namespace IamRust

open Core

/-- What a task runs; a bootstrap comes with the key its task has read. -/
inductive CursorWrite (κ : Type) where
  | recordSyncEvent (event : SyncEvent)
  | cacheBootstrap (key : Option κ) (draw : Table → Nat → Nonce) (value : BootstrapResponse)

/-- The tables, and the events accepted so far. -/
structure CursorLog where
  cells : Cells
  accepted : List Uuid

/-- The server gives an event one cursor, and a cursor is a `u64`. -/
def CursorWrite.WellFormed {κ : Type} (cursorOf : Uuid → Nat) : CursorWrite κ → Prop
  | .recordSyncEvent event => event.cursor = cursorOf event.id
  | .cacheBootstrap _ _ value => value.cursor ≤ u64Max

section
variable {κ : Type} (cipher : Cipher κ) (json : JsonTexts) (cursorOf : Uuid → Nat)

/-- An event counts as accepted if the call returned `true`. -/
def CursorLog.record (log : CursorLog) (event : SyncEvent) : CursorLog :=
  match (Cells.onStore (recordSyncEvent event)).commit log.cells with
  | (.ok true, cells) => ⟨cells, log.accepted ++ [event.id]⟩
  | (_, cells) => ⟨cells, log.accepted⟩

def CursorLog.bootstrap (log : CursorLog) (key : Option κ) (draw : Table → Nat → Nonce)
    (value : BootstrapResponse) : CursorLog :=
  ⟨((Cells.cacheBootstrap cipher json key draw value).commit log.cells).2, log.accepted⟩

def CursorLog.next (log : CursorLog) : CursorWrite κ → CursorLog
  | .recordSyncEvent event => log.record event
  | .cacheBootstrap key draw value => log.bootstrap cipher json key draw value

/-- The transactions in any order, from any tables with a cursor that can be read. -/
def cursorWrites : LTS CursorLog (CursorWrite κ) where
  init log := (∃ n, syncCursor log.cells.toLocalStore = .ok n) ∧ log.accepted = []
  step log write log' := write.WellFormed cursorOf ∧ log' = log.next cipher json write

/-- A bootstrap is not behind the stored cursor when it is cached. -/
def CursorWrite.NotBehind (log : CursorLog) : CursorWrite κ → Prop
  | .recordSyncEvent _ => True
  | .cacheBootstrap _ _ value =>
    ∀ n, syncCursor log.cells.toLocalStore = .ok n → n ≤ value.cursor

/-- The orders in which no bootstrap is behind the stored cursor when it is cached. -/
def orderedWrites : LTS CursorLog (CursorWrite κ) :=
  (cursorWrites cipher json cursorOf).restrict fun log write => write.NotBehind log

/-- The stored cursor is `n`, and no event was accepted that is ahead of it. -/
structure Fenced (log : CursorLog) (n : Nat) : Prop where
  cursor : syncCursor log.cells.toLocalStore = .ok n
  behind : ∀ id ∈ log.accepted, cursorOf id ≤ n
  once : log.accepted.Nodup

end

/-! ## The two writers -/

section
variable {κ : Type} {cipher : Cipher κ} {json : JsonTexts} {cursorOf : Uuid → Nat}
  {log : CursorLog} {n : Nat}

theorem onStore_runs {α : Type} {t : Tx String (LocalStore CachedConversation String String) α}
    {s s' : Cells} {a : α} (h : (Cells.onStore t).Runs s a s') :
    t.Runs s.toLocalStore a s'.toLocalStore := by
  simp only [Cells.onStore, Tx.Runs] at h
  split at h
  · cases h
    exact ‹_›
  · cases h

/-- A store whose row is the decimal text of a `u64`. -/
theorem syncCursor_repr {γ π ρ : Type} {s : LocalStore γ π ρ}
    (hs : s.syncCursor = some (Nat.repr n))
    (hn : n ≤ u64Max) : syncCursor s = .ok n := by
  unfold u64Max at hn
  unfold syncCursor
  rw [hs, Option.getD_some, parseU64_repr (by omega)]

/-- An accepted event was ahead, and the cursor is now the event's. -/
theorem recordSyncEvent_true {γ π ρ : Type} {s s' : LocalStore γ π ρ} {event : SyncEvent}
    (h : (recordSyncEvent event).Runs s true s') (hs : syncCursor s = .ok n) :
    n < event.cursor ∧ syncCursor s' = .ok event.cursor := by
  unfold recordSyncEvent at h
  rw [Tx.runs_get_bind] at h
  split at h
  · cases (Tx.runs_pure.mp h).1
  rw [Tx.runs_ofExcept_bind] at h
  obtain ⟨cursor, hcursor, h⟩ := h
  cases hs.symm.trans hcursor
  split at h
  · cases (Tx.runs_pure.mp h).1
  rename_i hahead
  simp only [Tx.runs_failIf_bind, Tx.runs_modify_bind, Tx.runs_pure] at h
  obtain ⟨hmax, -, -, rfl⟩ := h
  unfold i64Max at hmax
  exact ⟨by omega, syncCursor_repr rfl (by unfold u64Max; omega)⟩

/-- One that is refused leaves the tables as they are. -/
theorem recordSyncEvent_false {γ π ρ : Type} {s s' : LocalStore γ π ρ} {event : SyncEvent}
    (h : (recordSyncEvent event).Runs s false s') : s' = s := by
  unfold recordSyncEvent at h
  rw [Tx.runs_get_bind] at h
  split at h
  · exact (Tx.runs_pure.mp h).2
  rw [Tx.runs_ofExcept_bind] at h
  obtain ⟨cursor, -, h⟩ := h
  split at h
  · exact (Tx.runs_pure.mp h).2
  · simp only [Tx.runs_failIf_bind, Tx.runs_modify_bind, Tx.runs_pure] at h
    cases h.2.2.1

theorem cacheBootstrap_cursor {key : Option κ} {draw : Table → Nat → Nonce}
    {value : BootstrapResponse} {s s' : Cells} {u : Unit}
    (h : (Cells.cacheBootstrap cipher json key draw value).Runs s u s') :
    s'.syncCursor = some (Nat.repr value.cursor) := by
  unfold Cells.cacheBootstrap at h
  obtain ⟨_, _, -, h⟩ := Tx.runs_bind.mp h
  obtain ⟨_, _, -, h⟩ := Tx.runs_bind.mp h
  simp only [Tx.runs_ofExcept_bind, Tx.runs_modify_bind, Tx.runs_modify] at h
  obtain ⟨_, -, rfl⟩ := h
  rfl

/-! ## Every order -/

theorem Fenced.record (h : Fenced cursorOf log n) {event : SyncEvent}
    (hevent : event.cursor = cursorOf event.id) :
    ∃ n', n ≤ n' ∧ Fenced cursorOf (log.record event) n' := by
  unfold CursorLog.record
  rcases Tx.commit_cases (Cells.onStore (recordSyncEvent event)) log.cells with
    ⟨accepted, cells, hrun, hcommit⟩ | ⟨e, hcommit⟩
  · rw [hcommit]
    replace hrun := onStore_runs hrun
    cases accepted with
    | false =>
      refine ⟨n, Nat.le_refl n, ?_, h.behind, h.once⟩
      rw [recordSyncEvent_false hrun]
      exact h.cursor
    | true =>
      obtain ⟨hahead, hcursor⟩ := recordSyncEvent_true hrun h.cursor
      refine ⟨event.cursor, Nat.le_of_lt hahead, hcursor, fun id hid => ?_, ?_⟩
      · rcases List.mem_append.mp hid with hid | hid
        · exact Nat.le_trans (h.behind id hid) (Nat.le_of_lt hahead)
        · rw [List.mem_singleton.mp hid, hevent]
      · -- an event accepted before is not ahead
        have hnew : event.id ∉ log.accepted := fun hid => by
          have := h.behind _ hid
          omega
        exact List.nodup_append.mpr ⟨h.once, List.nodup_singleton _, by
          rintro id hid _ (_ | ⟨_, ⟨⟩⟩) rfl
          exact hnew hid⟩
  · rw [hcommit]
    exact ⟨n, Nat.le_refl n, h⟩

theorem Fenced.bootstrap (h : Fenced cursorOf log n) {key : Option κ}
    {draw : Table → Nat → Nonce} {value : BootstrapResponse} (hmax : value.cursor ≤ u64Max)
    (hle : n ≤ value.cursor) : ∃ n', n ≤ n' ∧
      Fenced cursorOf (log.bootstrap cipher json key draw value) n' := by
  unfold CursorLog.bootstrap
  rcases Tx.commit_cases (Cells.cacheBootstrap cipher json key draw value) log.cells with
    ⟨_, cells, hrun, hcommit⟩ | ⟨e, hcommit⟩
  · rw [hcommit]
    exact ⟨value.cursor, hle, syncCursor_repr (cacheBootstrap_cursor hrun) hmax,
      fun id hid => Nat.le_trans (h.behind id hid) hle, h.once⟩
  · rw [hcommit]
    exact ⟨n, Nat.le_refl n, h⟩

theorem Fenced.step (h : Fenced cursorOf log n) {write : CursorWrite κ} {log' : CursorLog}
    (hs : (orderedWrites cipher json cursorOf).step log write log') :
    ∃ n', n ≤ n' ∧ Fenced cursorOf log' n' := by
  obtain ⟨hok, hwell, rfl⟩ := hs
  cases write with
  | recordSyncEvent event => exact h.record hwell
  | cacheBootstrap key draw value => exact h.bootstrap hwell (hok n h.cursor)

theorem Fenced.run (h : Fenced cursorOf log n) {writes : List (CursorWrite κ)} {log' : CursorLog}
    (hr : (orderedWrites cipher json cursorOf).Run log writes log') :
    ∃ n', n ≤ n' ∧ Fenced cursorOf log' n' := by
  induction hr generalizing n with
  | nil => exact ⟨n, Nat.le_refl n, h⟩
  | cons hs _ ih =>
    obtain ⟨n₁, hle₁, h₁⟩ := h.step hs
    obtain ⟨n₂, hle₂, h₂⟩ := ih h₁
    exact ⟨n₂, Nat.le_trans hle₁ hle₂, h₂⟩

/-- **The cursor advances.** In every run in which no bootstrap is behind the stored cursor when it
is cached, the cursor does not go back and no event is accepted twice. -/
theorem stored_cursor_advances {log log' : CursorLog} {writes : List (CursorWrite κ)}
    (h : (orderedWrites cipher json cursorOf).Reachable log)
    (hr : (orderedWrites cipher json cursorOf).Run log writes log') :
    ∃ n n', syncCursor log.cells.toLocalStore = .ok n ∧
      syncCursor log'.cells.toLocalStore = .ok n' ∧ n ≤ n' ∧ log'.accepted.Nodup := by
  obtain ⟨log₀, past, ⟨⟨n₀, hn₀⟩, hnone⟩, hpast⟩ := h
  have hstart : Fenced cursorOf log₀ n₀ := ⟨hn₀, by simp [hnone], by simp [hnone]⟩
  obtain ⟨n, -, hn⟩ := hstart.run hpast
  obtain ⟨n', hle, hn'⟩ := hn.run hr
  exact ⟨n, n', hn.cursor, hn'.cursor, hle, hn'.once⟩

/-- Transactions that are well formed can be run in any order. -/
theorem run_cursorWrites {log : CursorLog} {writes : List (CursorWrite κ)}
    (h : ∀ write ∈ writes, write.WellFormed cursorOf) :
    (cursorWrites cipher json cursorOf).Run log writes
      (writes.foldl (fun log write => log.next cipher json write) log) := by
  induction writes generalizing log with
  | nil => exact .nil _
  | cons write writes ih =>
    exact .cons ⟨h write List.mem_cons_self, rfl⟩
      (ih fun write hwrite => h write (List.mem_cons_of_mem _ hwrite))

end

/-! ## A bootstrap that is late -/

def noCells : CursorLog := ⟨{}, []⟩

def recordOf (id : Uuid) (cursor : Nat) : CursorWrite Nat :=
  .recordSyncEvent (allReadEvent id cursor)

def bootstrapOf (cursor : Nat) : CursorWrite Nat :=
  .cacheBootstrap none zeroNonces { aliceAlone with cursor := cursor }

/-- Event 7 has the cursor 5, event 8 the cursor 60001. -/
def twoEvents (id : Uuid) : Nat := if id = 7 then 5 else 60001

/-- An event, and a bootstrap that is as far. -/
theorem stored_cursor_advances_bootstrap : ∃ n n',
    syncCursor noCells.cells.toLocalStore = .ok n ∧
    syncCursor ([recordOf 7 5, bootstrapOf 5].foldl (fun log write =>
      log.next Cipher.tagged noJson write) noCells).cells.toLocalStore = .ok n' ∧ n ≤ n' ∧
    ([recordOf 7 5, bootstrapOf 5].foldl (fun log write =>
      log.next Cipher.tagged noJson write) noCells).accepted.Nodup := by
  have hstart : (orderedWrites Cipher.tagged noJson twoEvents).Reachable noCells :=
    .init ⟨⟨0, by decide +kernel⟩, rfl⟩
  have hstored : syncCursor (noCells.next Cipher.tagged noJson
      (recordOf 7 5)).cells.toLocalStore = .ok 5 := by decide +kernel
  have hrecord : (orderedWrites Cipher.tagged noJson twoEvents).step noCells (recordOf 7 5)
    (noCells.next Cipher.tagged noJson (recordOf 7 5)) := ⟨trivial, rfl, rfl⟩
  have hbootstrap : (orderedWrites Cipher.tagged noJson twoEvents).step
      (noCells.next Cipher.tagged noJson (recordOf 7 5)) (bootstrapOf 5)
      ((noCells.next Cipher.tagged noJson (recordOf 7 5)).next Cipher.tagged noJson
        (bootstrapOf 5)) := by
    refine ⟨fun n hn => ?_, (by decide : 5 ≤ u64Max), rfl⟩
    cases hstored.symm.trans hn
    exact Nat.le_refl 5
  exact stored_cursor_advances hstart (.cons hrecord (.cons hbootstrap (.nil _)))

/-- A bootstrap fetched before the two events is cached behind them: the cursor goes back, and the
first event, whose row was pruned, is accepted again. -/
theorem cursor_goes_back : ∃ log log' : CursorLog,
    (cursorWrites Cipher.tagged noJson twoEvents).Reachable log ∧
    (cursorWrites Cipher.tagged noJson twoEvents).Run log [bootstrapOf 3, recordOf 7 5] log' ∧
    syncCursor log.cells.toLocalStore = .ok 60001 ∧
    syncCursor log'.cells.toLocalStore = .ok 5 ∧ ¬ log'.accepted.Nodup := by
  have hevents : ∀ write ∈ [recordOf 7 5, recordOf 8 60001], write.WellFormed twoEvents := by
    rintro _ (_ | ⟨_, _ | ⟨_, ⟨⟩⟩⟩) <;> rfl
  have hlate : ∀ write ∈ [bootstrapOf 3, recordOf 7 5], write.WellFormed twoEvents := by
    rintro _ (_ | ⟨_, _ | ⟨_, ⟨⟩⟩⟩)
    · show 3 ≤ u64Max
      decide
    · rfl
  exact ⟨_, _, ⟨noCells, _, ⟨⟨0, by decide +kernel⟩, rfl⟩, run_cursorWrites hevents⟩,
    run_cursorWrites hlate, by decide +kernel, by decide +kernel, by decide +kernel⟩

end IamRust
