import IamRust.L0Core.LTS
import IamRust.L0Core.TimeText
import IamRust.L6Client.LocalStore

/-!
# When the outbox is due

The outbox has its times as texts, and SQL compares them as texts. Beside the
store a timetable records the times themselves, as the calls write them.

* `outbox_by_time`: in the years 0 to 9999 texts compare as their times do, and
  `ready_outbox` returns what the timetable says is due, in the order in which
  the entries were made.
-/
namespace IamRust

open Core

/-! ## Times -/

/-- The Unix epoch, in nanoseconds since the beginning of the year 0. -/
def unixEpoch : Int :=
  (TimeText.daysBeforeYear 1970 * TimeText.secondsOfDay * TimeText.nanosOfSecond : Nat)

/-- Nanoseconds since the beginning of the year 0. -/
def DateTime.sinceZero (t : DateTime) : Int := t + unixEpoch

/-- The years 0 to 9999. -/
def DateTime.FourDigits (t : DateTime) : Prop :=
  0 ≤ t.sinceZero ∧ t.sinceZero < (TimeText.limit : Nat)

instance {t : DateTime} : Decidable t.FourDigits := inferInstanceAs (Decidable (_ ∧ _))

/-- `to_rfc3339`, for the years 0 to 9999. -/
def toRfc3339 (t : DateTime) : String := String.ofList (TimeText.text t.sinceZero.toNat)

section
variable {s t : DateTime}

theorem toRfc3339_lt (hs : s.FourDigits) (ht : t.FourDigits) :
    toRfc3339 s < toRfc3339 t ↔ s < t := by
  have hsince : s.sinceZero < t.sinceZero ↔ s < t := Int.add_lt_add_iff_right unixEpoch
  obtain ⟨hs, hs'⟩ := hs
  obtain ⟨ht, ht'⟩ := ht
  rw [String.lt_iff_toList_lt, toRfc3339, toRfc3339, String.toList_ofList, String.toList_ofList,
    TimeText.text_lt_iff (by omega) (by omega), ← hsince]
  omega

theorem toRfc3339_le (hs : s.FourDigits) (ht : t.FourDigits) :
    toRfc3339 s ≤ toRfc3339 t ↔ s ≤ t := by
  rw [← not_lt, toRfc3339_lt ht hs, not_lt]

end

example : toRfc3339 0 = "1970-01-01T00:00:00+00:00" := by decide +kernel

example : toRfc3339 951827696120000000 = "2000-02-29T12:34:56.120+00:00" := by decide +kernel

/-! ## Calls -/

/-- The calls that write the outbox. `fail` is the second statement of `record_outbox_failure`,
whatever the first one read. `protect` writes the payloads anew, and `write` the other tables. -/
inductive ScheduleCall (γ π ρ : Type) where
  | enqueue (clientMessageId : MessageId) (conversationId : ConversationId) (payload : ρ)
    (now : DateTime)
  | acknowledge (clientMessageId : MessageId)
  | retry (clientMessageId : MessageId) (now : DateTime)
  | fail (clientMessageId : MessageId) (errorCode : String) (attempts random : Nat) (now : DateTime)
  | discard (clientMessageId : MessageId)
  | clear
  | protect (f : ρ → ρ)
  | write (f : LocalStore γ π ρ → LocalStore γ π ρ)

/-- When an entry is due, and when it was made. -/
structure Times where
  next : DateTime
  created : DateTime

abbrev Timetable := Map MessageId Times

variable {γ π ρ : Type}

def ScheduleCall.run : ScheduleCall γ π ρ → Tx String (LocalStore γ π ρ) Unit
  | .enqueue clientMessageId conversationId payload now =>
    enqueueOutbox toRfc3339 clientMessageId conversationId payload now
  | .acknowledge clientMessageId => acknowledgeOutbox clientMessageId
  | .retry clientMessageId now => retryOutboxNow toRfc3339 clientMessageId now
  | .fail clientMessageId errorCode attempts random now =>
    rescheduleOutbox toRfc3339 clientMessageId errorCode attempts random now
  | .discard clientMessageId => discardPendingMessage clientMessageId
  | .clear => clearAccountCache
  | .protect f => modify fun s => { s with
      outbox := s.outbox.mapValues fun row => { row with payload := f row.payload } }
  | .write f => modify fun s => { f s with outbox := s.outbox }

/-- The time a call writes. -/
def ScheduleCall.time : ScheduleCall γ π ρ → Option DateTime
  | .enqueue _ _ _ now | .retry _ now => some now
  | .fail _ _ attempts random now => some (now + retryDelay (min (attempts + 1) i64Max) random)
  | _ => none

/-- The timetable behind a call. An entry that is enqueued again keeps its times. -/
def ScheduleCall.times (t : Timetable) : ScheduleCall γ π ρ → Timetable
  | .enqueue clientMessageId _ _ now => t.orInsert clientMessageId ⟨now, now⟩
  | .acknowledge clientMessageId | .discard clientMessageId => t.remove clientMessageId
  | .retry clientMessageId now => t.modify clientMessageId fun times => { times with next := now }
  | .fail clientMessageId _ attempts random now => t.modify clientMessageId fun times =>
      { times with next := now + retryDelay (min (attempts + 1) i64Max) random }
  | .clear => .empty
  | .protect _ | .write _ => t

/-- The calls that succeed, with times of the years 0 to 9999. -/
def scheduling (γ π ρ : Type) : LTS (LocalStore γ π ρ × Timetable) (ScheduleCall γ π ρ) where
  init x := x.1.outbox = .empty ∧ x.2 = .empty
  step x l x' := l.run.Runs x.1 () x'.1 ∧ x'.2 = l.times x.2 ∧ ∀ t, l.time = some t → t.FourDigits

/-! ## The timetable -/

/-- The texts of a row are those of its times. -/
structure OutboxRow.Prints (row : OutboxRow ρ) (times : Times) : Prop where
  next : row.nextAttemptAt = toRfc3339 times.next
  created : row.createdAt = toRfc3339 times.created
  next_digits : times.next.FourDigits
  created_digits : times.created.FourDigits

/-- The timetable has the times of all rows. -/
def Timed (x : LocalStore γ π ρ × Timetable) : Prop :=
  ∀ id, Option.Rel OutboxRow.Prints (x.1.outbox.get id) (x.2.get id)

section
variable {s s' : LocalStore γ π ρ} {t : Timetable} {now : DateTime} {id : MessageId}

theorem Timed.removed (h : Timed (s, t)) (hs : s'.outbox = s.outbox.remove id) :
    Timed (s', t.remove id) := by
  intro i
  simp only [hs, Map.get_remove]
  split
  · exact .none
  · exact h i

/-- The next attempt is put off. -/
theorem Timed.put_off (h : Timed (s, t)) {f : OutboxRow ρ → OutboxRow ρ}
    (hs : s'.outbox = s.outbox.modify id f) (hnow : now.FourDigits)
    (hf : ∀ row, (f row).nextAttemptAt = toRfc3339 now ∧ (f row).createdAt = row.createdAt) :
    Timed (s', t.modify id fun times => { times with next := now }) := by
  intro i
  simp only [hs, Map.get_modify]
  have hi : Option.Rel OutboxRow.Prints (s.outbox.get i) (t.get i) := h i
  generalize s.outbox.get i = row, t.get i = times at hi
  split
  · cases hi with
    | none => exact .none
    | some hprints => exact .some ⟨(hf _).1, (hf _).2.trans hprints.created, hnow,
        hprints.created_digits⟩
  · exact hi

end

/-- **Step.** -/
theorem timed_inductive : (scheduling γ π ρ).Inductive Timed where
  init x hx id := by
    rw [hx.1, hx.2, Map.get_empty, Map.get_empty]
    exact .none
  step := by
    rintro ⟨s, t⟩ l ⟨s', t'⟩ h ⟨hr, rfl, htime⟩
    cases l with
    | enqueue clientMessageId conversationId payload now =>
      obtain ⟨-, rfl⟩ := enqueueOutbox_runs.mp hr
      have hnow : now.FourDigits := htime now rfl
      intro i
      have hi : Option.Rel OutboxRow.Prints (s.outbox.get i) (t.get i) := h i
      simp only [ScheduleCall.times, Map.get_insert, Map.get_orInsert]
      split
      · rename_i hid
        subst hid
        unfold LocalStore.enqueued
        generalize s.outbox.get i = row, t.get i = times at hi
        cases hi with
        | none => exact .some ⟨rfl, rfl, hnow, hnow⟩
        | some hprints => exact .some ⟨hprints.1, hprints.2, hprints.3, hprints.4⟩
      · exact hi
    | acknowledge clientMessageId =>
      cases Tx.runs_modify.mp hr
      exact h.removed rfl
    | retry clientMessageId now =>
      unfold ScheduleCall.run retryOutboxNow at hr
      rw [Tx.runs_get_bind, Tx.runs_failIf_bind, Tx.runs_modify] at hr
      obtain ⟨-, rfl⟩ := hr
      exact h.put_off rfl (htime now rfl) fun _ => ⟨rfl, rfl⟩
    | fail clientMessageId errorCode attempts random now =>
      cases Tx.runs_modify.mp hr
      exact h.put_off rfl (htime _ rfl) fun _ => ⟨rfl, rfl⟩
    | discard clientMessageId =>
      cases Tx.runs_modify.mp hr
      exact h.removed rfl
    | clear =>
      cases Tx.runs_modify.mp hr
      intro i
      exact .none
    | protect f =>
      cases Tx.runs_modify.mp hr
      intro i
      have hi : Option.Rel OutboxRow.Prints (s.outbox.get i) (t.get i) := h i
      simp only [ScheduleCall.times, Map.get_mapValues]
      generalize s.outbox.get i = row, t.get i = times at hi
      cases hi with
      | none => exact .none
      | some hprints => exact .some ⟨hprints.1, hprints.2, hprints.3, hprints.4⟩
    | write f =>
      cases Tx.runs_modify.mp hr
      exact h

/-! ## Main result -/

section
variable {x : LocalStore γ π ρ × Timetable} {now : DateTime}

/-- The entry is due. -/
def Timetable.due (t : Timetable) (now : DateTime) (id : MessageId) : Bool :=
  (t.get id).any fun times => decide (times.next ≤ now)

/-- When the entry was made. -/
def Timetable.created (t : Timetable) (id : MessageId) : DateTime :=
  ((t.get id).map (·.created)).getD 0

theorem Timed.entry (h : Timed x) {entry : MessageId × OutboxRow ρ} (he : entry ∈ x.1.outbox.entries) :
    ∃ times, x.2.get entry.1 = some times ∧ entry.2.Prints times := by
  have hi := h entry.1
  rw [Map.mem_entries.mp he] at hi
  generalize x.2.get entry.1 = times at hi
  cases hi with
  | some hprints => exact ⟨_, rfl, hprints⟩

theorem Timed.due_iff (h : Timed x) (hnow : now.FourDigits) {entry : MessageId × OutboxRow ρ}
    (he : entry ∈ x.1.outbox.entries) :
    decide (entry.2.nextAttemptAt ≤ toRfc3339 now) = Timetable.due x.2 now entry.1 := by
  obtain ⟨times, htimes, hprints⟩ := h.entry he
  rw [Timetable.due, htimes, hprints.next, Option.any_some, decide_eq_decide]
  exact toRfc3339_le hprints.next_digits hnow

theorem Timed.created_iff (h : Timed x) {a b : MessageId × OutboxRow ρ}
    (ha : a ∈ x.1.outbox.entries) (hb : b ∈ x.1.outbox.entries) :
    a.2.createdAt ≤ b.2.createdAt ↔ Timetable.created x.2 a.1 ≤ Timetable.created x.2 b.1 := by
  obtain ⟨times, htimes, hprints⟩ := h.entry ha
  obtain ⟨times', htimes', hprints'⟩ := h.entry hb
  rw [Timetable.created, Timetable.created, htimes, htimes', hprints.created, hprints'.created]
  exact toRfc3339_le hprints.created_digits hprints'.created_digits

end

/-- **The outbox goes by the times.** The texts of two times of the years 0 to 9999 compare as the
times do. After any calls, `ready_outbox` returns the first 100 of the entries that are due at `now`
by the times the calls wrote, in the order of the times they were made at. -/
theorem outbox_by_time :
    (∀ s t : DateTime, s.FourDigits → t.FourDigits → (toRfc3339 s ≤ toRfc3339 t ↔ s ≤ t)) ∧
    ∀ (x : LocalStore γ π ρ × Timetable) (now : DateTime), (scheduling γ π ρ).Reachable x →
      now.FourDigits → readyOutbox toRfc3339 x.1 now =
        ((x.1.outbox.entries.filter fun entry => Timetable.due x.2 now entry.1).insertionSort
          fun a b => Timetable.created x.2 a.1 ≤ Timetable.created x.2 b.1).take 100 := by
  refine ⟨fun s t hs ht => toRfc3339_le hs ht, fun x now hx hnow => ?_⟩
  have htimed : Timed x := timed_inductive.reachable hx
  unfold readyOutbox
  congr 1
  have hdue : (x.1.outbox.entries.filter fun entry =>
      decide (entry.2.nextAttemptAt ≤ toRfc3339 now)) =
      x.1.outbox.entries.filter fun entry => Timetable.due x.2 now entry.1 :=
    List.filter_congr fun entry he => htimed.due_iff hnow he
  rw [hdue]
  have hsort := List.map_insertionSort (fun a b => a.2.createdAt ≤ b.2.createdAt)
    (fun a b => Timetable.created x.2 a.1 ≤ Timetable.created x.2 b.1) id
    (x.1.outbox.entries.filter fun entry => Timetable.due x.2 now entry.1)
    fun a ha b hb => htimed.created_iff (List.mem_of_mem_filter ha) (List.mem_of_mem_filter hb)
  rwa [List.map_id, List.map_id] at hsort

/-- The ids of the entries that are due, by the timetable. -/
def Timetable.ready (x : LocalStore γ π ρ × Timetable) (now : DateTime) : List MessageId :=
  (((x.1.outbox.entries.filter fun entry => Timetable.due x.2 now entry.1).insertionSort
    fun a b => Timetable.created x.2 a.1 ≤ Timetable.created x.2 b.1).take 100).map (·.1)

/-- A call that succeeds, decided. -/
def ScheduleCall.next (x : LocalStore γ π ρ × Timetable) (l : ScheduleCall γ π ρ) :
    Option (LocalStore γ π ρ × Timetable) :=
  if l.time.all fun t => decide (DateTime.FourDigits t) then
    (l.run x.1).toOption.map fun r => (r.2, l.times x.2)
  else none

theorem ScheduleCall.step_of_next {x x' : LocalStore γ π ρ × Timetable} {l : ScheduleCall γ π ρ}
    (h : l.next x = some x') : (scheduling γ π ρ).step x l x' := by
  unfold ScheduleCall.next at h
  split at h
  · rename_i hall
    obtain ⟨r, hr, rfl⟩ := Option.map_eq_some_iff.mp h
    refine ⟨toOption_eq_some.mp hr, rfl, fun t ht => ?_⟩
    rw [ht] at hall
    exact of_decide_eq_true hall
  · cases h

/-- An entry that failed once waits two seconds. -/
theorem outbox_by_time_failed : ∃ x, (scheduling Unit Unit Unit).Reachable x ∧
    (readyOutbox toRfc3339 x.1 (Duration.seconds 1)).map (·.1) = [] ∧
    (readyOutbox toRfc3339 x.1 (Duration.seconds 2)).map (·.1) = [1] := by
  have hinit : (scheduling Unit Unit Unit).init
      ({ conversations := Map.empty.insert 9 () }, .empty) := ⟨rfl, rfl⟩
  obtain ⟨x, hx, hp⟩ := LTS.reaches_of_exec hinit [.enqueue 1 9 () 0, .fail 1 "timeout" 0 0 0]
    (fun _ _ _ _ => ScheduleCall.step_of_next)
    (fun x => decide (Timetable.ready x (Duration.seconds 1) = []) &&
      decide (Timetable.ready x (Duration.seconds 2) = [1])) (by decide +kernel)
  simp only [Bool.and_eq_true, decide_eq_true_eq] at hp
  have hready := fun now hnow => outbox_by_time.2 x now hx hnow
  refine ⟨x, hx, ?_, ?_⟩
  · rw [hready _ (by decide)]
    exact hp.1
  · rw [hready _ (by decide)]
    exact hp.2

end IamRust
