import IamRust.L4Properties.Log

/-!
# The realtime channel

The server's WebSocket loop and the desktop client of one user, step by step.
The store grows by the operations of the service, and its events are put on the
broadcast channel in cursor order. A connection subscribes to the channel, sends
a `Welcome` with the latest cursor, and forwards what its receiver gives it; the
receiver loses its oldest entries when it is more than 512 behind. The client
reads frames in order; a `Welcome` above its cursor makes it page through
`/sync` before it reads on. Either side can go away at any time.

* `no_event_lost`: nothing below the client's cursor is missing, if no receiver
  that lags skips an event the client still needs and no page is left to be
  fetched; and everything was handed over exactly once, if besides no catch-up
  breaks off after it handed something over.
* The server ignores that a receiver lagged, and the next event moves the
  client's cursor past what was skipped (`lagging_receiver_loses_events`).
-/
namespace IamRust

open Core

/-! ## The parties -/

/-- The frames that matter for the cursor.
mirrors crates/protocol/src/lib.rs (`ServerFrame`) -/
inductive Frame where
  | welcome (latestCursor : Nat)
  | event (event : SyncEvent)

/-- What the client is doing: waiting for a frame, or in the loop of `catch_up` with its local
cursor and the rest of the page it is handing over. -/
inductive Phase where
  | listening
  | syncing (cursor : Nat) (page : Option SyncResponse)

/-- A connection: the place of the server's receiver in the channel once it subscribed, whether
the `Welcome` was sent, the frames in flight, and the client's phase. -/
structure Link where
  receiver : Option Nat
  welcomed : Bool
  wire : List Frame
  phase : Phase

/-- `sent`: how many events of the log are on the channel. `handed`: what the client handed to the
UI. -/
structure Realtime where
  store : World
  sent : Nat
  link : Option Link
  cursor : Nat
  handed : List SyncEvent

inductive RealtimeStep where
  | mutate (op : Op)
  | publish
  | connect
  | subscribe
  | welcome
  | receive
  | readFrame
  | fetchPage
  | fetchFailed
  | handOver
  | pageDone
  | disconnect

/-- mirrors crates/application/src/service.rs:348 -/
def channelCapacity : Nat := 512

/-- mirrors apps/desktop/src/realtime.rs:356 -/
def catchUpLimit : Nat := 200

/-- `events.recv()` and what the loop does with the result.
mirrors apps/server/src/websocket.rs:42-52 -/
def Link.receive (link : Link) (user : UserId) (events : List UserEvent) (sent : Nat) :
    Option Link :=
  match link.welcomed, link.receiver with
  | true, some next =>
    if channelCapacity < sent - next then
      some { link with receiver := some (sent - channelCapacity) }
    else if next < sent then
      match events[next]? with
      | none => none
      | some entry =>
        some { link with
          receiver := some (next + 1)
          wire := if entry.addressedTo user then link.wire ++ [.event entry.event] else link.wire }
    else none
  | _, _ => none

/-- mirrors apps/desktop/src/realtime.rs:285-307 -/
def Realtime.handleServerFrame (x : Realtime) (link : Link) : Option Realtime :=
  match link.phase, link.wire with
  | .listening, .welcome latestCursor :: wire =>
    some { x with link := some { link with
      wire := wire
      phase := if latestCursor > x.cursor then .syncing x.cursor none else .listening } }
  | .listening, .event event :: wire =>
    if event.cursor > x.cursor then
      some { x with
        cursor := event.cursor
        handed := x.handed ++ [event]
        link := some { link with wire := wire } }
    else some { x with link := some { link with wire := wire } }
  | _, _ => none

/-- The body of the loop of `catch_up`, piece by piece. A failed request ends it and the
connection; the cursor is only written at the end.
mirrors apps/desktop/src/realtime.rs:349-371 -/
def Realtime.catchUpStep (x : Realtime) (user : UserId) (link : Link) :
    RealtimeStep → Option Realtime
  | .fetchPage =>
    match link.phase with
    | .syncing cursor none =>
      some { x with link := some { link with
        phase := .syncing cursor (some (sync x.store.toStore user cursor catchUpLimit)) } }
    | _ => none
  | .fetchFailed =>
    match link.phase with
    | .syncing _ none => some { x with link := none }
    | _ => none
  | .handOver =>
    match link.phase with
    | .syncing cursor (some ⟨event :: events, nextCursor, hasMore⟩) =>
      some { x with
        handed := x.handed ++ [event]
        link := some { link with
          phase := .syncing (max cursor event.cursor) (some ⟨events, nextCursor, hasMore⟩) } }
    | _ => none
  | .pageDone =>
    match link.phase with
    | .syncing cursor (some ⟨[], nextCursor, hasMore⟩) =>
      if hasMore then
        some { x with link := some { link with phase := .syncing (max cursor nextCursor) none } }
      else
        some { x with
          cursor := max cursor nextCursor
          link := some { link with phase := .listening } }
    | _ => none
  | _ => none

/-- The connection is gone when a client that listens notices. -/
def Realtime.disconnect (x : Realtime) (link : Link) : Option Realtime :=
  match link.phase with
  | .listening => some { x with link := none }
  | .syncing _ _ => none

/-- mirrors apps/server/src/websocket.rs:12-107, apps/desktop/src/realtime.rs:122-371 -/
def Realtime.step (env : Env) (user : UserId) (x : Realtime) : RealtimeStep → Option Realtime
  | .mutate op =>
    match op.run env x.store with
    | .error _ => none
    | .ok (_, store) => some { x with store := store }
  | .publish =>
    if x.sent < x.store.events.length then some { x with sent := x.sent + 1 } else none
  | .connect =>
    match x.link with
    | none => some { x with link := some ⟨none, false, [], .listening⟩ }
    | some _ => none
  | .subscribe => x.link.bind fun link =>
    match link.receiver with
    | none => some { x with link := some { link with receiver := some x.sent } }
    | some _ => none
  | .welcome => x.link.bind fun link =>
    match link.welcomed, link.receiver with
    | false, some _ =>
      some { x with link := some { link with
        welcomed := true
        wire := link.wire ++ [.welcome x.store.cursor] } }
    | _, _ => none
  | .receive => x.link.bind fun link =>
    (link.receive user x.store.events x.sent).map fun link => { x with link := some link }
  | .readFrame => x.link.bind x.handleServerFrame
  | .disconnect => x.link.bind x.disconnect
  | l => x.link.bind fun link => x.catchUpStep user link l

/-- The cursor the client goes by at the moment. -/
def Realtime.current (x : Realtime) : Nat :=
  match x.link with
  | some { phase := .syncing cursor _, .. } => cursor
  | _ => x.cursor

/-- Any service and a client that starts from a cursor. Cursors are not used up: the channel
carries the log in strictly increasing order. -/
def realtime (env : Env) (user : UserId) (start : Nat) : LTS Realtime RealtimeStep where
  init x := (service env).Reachable x.store ∧ x.store.cursor < u64Max ∧
    x.sent ≤ x.store.events.length ∧ x.link = none ∧ x.cursor = start ∧ x.handed = []
  step x l x' := x.step env user l = some x' ∧ x'.store.cursor < u64Max

/-! ## The log and the channel -/

/-- The events addressed to the user among the first `n` of the log. -/
def addressedUpTo (s : Store) (user : UserId) (n : Nat) : List SyncEvent :=
  ((s.events.take n).filter fun entry => entry.addressedTo user).map (·.event)

section
variable {s s' : Store} {user : UserId} {n : Nat} {e e' : SyncEvent}

theorem addressedUpTo_subset (h : e ∈ addressedUpTo s user n) : e ∈ addressed s user := by
  unfold addressedUpTo at h
  obtain ⟨entry, hentry, rfl⟩ := List.mem_map.mp h
  obtain ⟨hmem, hto⟩ := List.mem_filter.mp hentry
  exact List.mem_map.mpr ⟨entry, List.mem_filter.mpr ⟨List.mem_of_mem_take hmem, hto⟩, rfl⟩

theorem addressedUpTo_mono {m : Nat} (hle : n ≤ m) (h : e ∈ addressedUpTo s user n) :
    e ∈ addressedUpTo s user m := by
  obtain ⟨entry, hentry, rfl⟩ := List.mem_map.mp h
  obtain ⟨hmem, hto⟩ := List.mem_filter.mp hentry
  exact List.mem_map.mpr ⟨entry, List.mem_filter.mpr
    ⟨(List.take_sublist_take_left hle).subset hmem, hto⟩, rfl⟩

/-- The next entry of the log is above what came before it. -/
theorem addressedUpTo_lt {entry : UserEvent} (h : Paging.Increasing (·.event.cursor) s.events)
    (hentry : s.events[n]? = some entry) (he : e ∈ addressedUpTo s user n) :
    e.cursor < entry.event.cursor := by
  obtain ⟨entry', hentry', rfl⟩ := List.mem_map.mp he
  have htake : entry' ∈ s.events.take n := (List.mem_filter.mp hentry').1
  have hdrop : entry ∈ s.events.drop n :=
    List.mem_of_mem_head? (by rw [List.head?_drop, hentry]; rfl)
  rw [← List.take_append_drop n s.events] at h
  exact (Paging.Increasing.append.mp h).2.2 entry' htake entry hdrop

/-- New events of the log leave its beginning alone. -/
theorem addressedUpTo_grow {new : List UserEvent} (hs : s'.events = s.events ++ new)
    (hn : n ≤ s.events.length) : addressedUpTo s' user n = addressedUpTo s user n := by
  unfold addressedUpTo
  rw [hs, List.take_append_of_le_length hn]

theorem addressed_grow {new : List UserEvent} (hs : s'.events = s.events ++ new) :
    addressed s' user = addressed s user ++
      (new.filter fun entry => entry.addressedTo user).map (·.event) := by
  simp [addressed, hs]

theorem addressedUpTo_succ {entry : UserEvent} (hentry : s.events[n]? = some entry) :
    addressedUpTo s user (n + 1) = addressedUpTo s user n ++
      if entry.addressedTo user then [entry.event] else [] := by
  unfold addressedUpTo
  rw [List.take_add_one, hentry, List.filter_append, List.map_append]
  congr 1
  by_cases hto : entry.addressedTo user <;> simp [hto]

/-- What comes before an event of the beginning is in the beginning too. -/
theorem addressedUpTo_below (h : Paging.Increasing (·.event.cursor) s.events)
    (he : e ∈ addressedUpTo s user n) (he' : e' ∈ addressed s user) (hlt : e'.cursor < e.cursor) :
    e' ∈ addressedUpTo s user n := by
  obtain ⟨entry, hentry, rfl⟩ := List.mem_map.mp he
  obtain ⟨entry', hentry', rfl⟩ := List.mem_map.mp he'
  obtain ⟨htake, -⟩ := List.mem_filter.mp hentry
  obtain ⟨hmem, hto⟩ := List.mem_filter.mp hentry'
  refine List.mem_map.mpr ⟨entry', List.mem_filter.mpr ⟨?_, hto⟩, rfl⟩
  rw [← List.take_append_drop n s.events] at hmem h
  rcases List.mem_append.mp hmem with hmem | hmem
  · exact hmem
  · have := (Paging.Increasing.append.mp h).2.2 entry htake entry' hmem
    omega

theorem addressed_le_cursor (h : Numbered 0 s.events s.cursor) (hc : s.cursor < u64Max)
    (he : e ∈ addressed s user) : e.cursor ≤ s.cursor := by
  obtain ⟨entry, hentry, rfl⟩ := List.mem_map.mp he
  have hmem : entry ∈ s.events := (List.mem_filter.mp hentry).1
  obtain ⟨hmap, hlen⟩ := h.cursors hc
  have hcursor : entry.event.cursor ∈ List.range' 1 s.events.length := by
    rw [← hmap]
    exact List.mem_map_of_mem hmem
  rw [List.mem_range'_1] at hcursor
  omega

end

/-! ## What a connection guarantees -/

def Frame.event? : Frame → Option SyncEvent
  | .welcome _ => none
  | .event e => some e

/-- The rest of the page in hand. -/
def Link.pending (link : Link) : List SyncEvent :=
  match link.phase with
  | .syncing _ (some page) => page.events
  | _ => []

/-- The cursor the client goes by: its own, or that of the loop. -/
def Link.cursorFrom (link : Link) (cursor : Nat) : Nat :=
  match link.phase with
  | .syncing local_ _ => local_
  | .listening => cursor

/-- A page is still to be fetched: a `Welcome` above the client's cursor is in flight, or the loop
has not got its last page. -/
def Link.ToFetch (link : Link) (cursor : Nat) : Prop :=
  (∃ latest, .welcome latest ∈ link.wire ∧ cursor < latest) ∨
  match link.phase with
  | .listening => False
  | .syncing _ none => True
  | .syncing _ (some page) => page.hasMore = true

/-- The client has the event, or will get it over this connection. -/
def Link.Covers (link : Link) (cursor : Nat) (e : SyncEvent) : Prop :=
  e.cursor ≤ link.cursorFrom cursor ∨ e ∈ link.pending ∨ .event e ∈ link.wire ∨
    link.ToFetch cursor

theorem Link.Covers.mono {link link' : Link} {cursor : Nat} {e : SyncEvent}
    (h : link.Covers cursor e) (hphase : link'.phase = link.phase)
    (hwire : ∀ f ∈ link.wire, f ∈ link'.wire) : link'.Covers cursor e := by
  unfold Link.Covers Link.cursorFrom Link.pending Link.ToFetch at h ⊢
  rw [hphase]
  rcases h with h | h | h | ⟨latest, hmem, hlt⟩ | h
  · exact .inl h
  · exact .inr (.inl h)
  · exact .inr (.inr (.inl (hwire _ h)))
  · exact .inr (.inr (.inr (.inl ⟨latest, hwire _ hmem, hlt⟩)))
  · exact .inr (.inr (.inr (.inr h)))

structure LinkOk (user : UserId) (s : Store) (sent cursor : Nat) (link : Link) : Prop where
  upTo : ∀ n ∈ link.receiver, n ≤ sent
  quiet : link.welcomed = false → link.wire = [] ∧ link.phase = .listening
  subscribed : link.welcomed = true → link.receiver ≠ none
  ordered : Paging.Increasing (·.cursor) (link.wire.filterMap Frame.event?)
  forwarded : ∀ e, .event e ∈ link.wire → ∃ n ∈ link.receiver, e ∈ addressedUpTo s user n
  welcomeFirst : ∀ latest, .welcome latest ∉ link.wire.tail
  welcomeOnce : link.phase ≠ .listening → ∀ latest, .welcome latest ∉ link.wire
  page : ∃ rest, Paging.above (·.cursor) (link.cursorFrom cursor) (addressed s user) =
    link.pending ++ rest
  next : ∀ c page, link.phase = .syncing c (some page) →
    page.nextCursor ≤ Paging.advance (·.cursor) c page.events
  behind : cursor ≤ link.cursorFrom cursor
  covered : link.welcomed = true → ∀ n ∈ link.receiver, ∀ e ∈ addressedUpTo s user n,
    link.Covers cursor e

/-- Nothing below the cursor is missing, and the connection sees to it that nothing will be. -/
structure Tracking (user : UserId) (start : Nat) (x : Realtime) : Prop where
  numbered : Numbered 0 x.store.events x.store.cursor
  bounded : x.store.cursor < u64Max
  sent : x.sent ≤ x.store.events.length
  notBefore : start ≤ x.cursor
  reached : x.current = start ∨ x.current ≤ x.store.cursor
  seen : ∀ e ∈ addressed x.store.toStore user, start < e.cursor → e.cursor ≤ x.current →
    e ∈ x.handed
  link : ∀ link ∈ x.link, LinkOk user x.store.toStore x.sent x.cursor link

section
variable {env : Env} {user : UserId} {start : Nat} {x x' : Realtime} {link : Link}

theorem Tracking.increasing (h : Tracking user start x) :
    Paging.Increasing (·.event.cursor) x.store.events := h.numbered.increasing h.bounded

theorem Tracking.current_eq (hl : x.link = some link) :
    x.current = link.cursorFrom x.cursor := by
  obtain ⟨receiver, welcomed, wire, phase⟩ := link
  simp only [Realtime.current, hl]
  cases phase <;> rfl

theorem current_none (hl : x.link = none) : x.current = x.cursor := by
  simp only [Realtime.current, hl]

/-- The client's cursor and what it handed over stay, as does what it goes by. -/
theorem Tracking.relink (h : Tracking user start x) (hl : x.link = some link) {link' : Link}
    (hcursor : link'.cursorFrom x.cursor = link.cursorFrom x.cursor)
    (hok : LinkOk user x.store.toStore x.sent x.cursor link') :
    Tracking user start { x with link := some link' } := by
  have hcur : Realtime.current { x with link := some link' } = x.current := by
    rw [Tracking.current_eq hl, Tracking.current_eq rfl]
    exact hcursor
  refine ⟨h.numbered, h.bounded, h.sent, h.notBefore, ?_, ?_, ?_⟩
  · rw [hcur]; exact h.reached
  · rw [hcur]; exact h.seen
  · rintro l ⟨⟩; exact hok

/-- Without a connection the client goes by its own cursor. -/
theorem Tracking.unlink (h : Tracking user start x) : Tracking user start { x with link := none } := by
  have hle : x.cursor ≤ x.current := by
    cases hl : x.link with
    | none => exact Nat.le_of_eq (current_none hl).symm
    | some link => rw [Tracking.current_eq hl]; exact (h.link link hl).behind
  refine ⟨h.numbered, h.bounded, h.sent, h.notBefore, ?_, ?_, fun l hl => nomatch hl⟩
  · have := h.reached
    have := h.notBefore
    show x.cursor = start ∨ x.cursor ≤ x.store.cursor
    omega
  · exact fun e he hs hc => h.seen e he hs (Nat.le_trans hc hle)

theorem LinkOk.grow {s s' : Store} {sent cursor : Nat} (h : LinkOk user s sent cursor link)
    (hsent : sent ≤ s.events.length) {new : List UserEvent} (hs : s'.events = s.events ++ new) :
    LinkOk user s' sent cursor link := by
  have hupTo : ∀ n ∈ link.receiver, addressedUpTo s' user n = addressedUpTo s user n :=
    fun n hn => addressedUpTo_grow hs ((h.upTo n hn).trans hsent)
  refine ⟨h.upTo, h.quiet, h.subscribed, h.ordered, fun e he => ?_, h.welcomeFirst, h.welcomeOnce, ?_, h.next, h.behind,
    fun hw n hn => ?_⟩
  · obtain ⟨n, hn, hmem⟩ := h.forwarded e he
    exact ⟨n, hn, hupTo n hn ▸ hmem⟩
  · obtain ⟨rest, hrest⟩ := h.page
    rw [addressed_grow hs, Paging.above_append, hrest, List.append_assoc]
    exact ⟨_, rfl⟩
  · rw [hupTo n hn]
    exact h.covered hw n hn

theorem Tracking.mutate (h : Tracking user start x) {w : World} {new : List UserEvent}
    (hw : w.events = x.store.events ++ new) (hnum : Numbered x.store.cursor new w.cursor)
    (hc : w.cursor < u64Max) : Tracking user start { x with store := w } := by
  have hall : Numbered 0 w.events w.cursor := by
    rw [hw]
    exact h.numbered.append hnum
  have hle := (hnum.mono (Nat.le_of_lt h.bounded)).1
  have hcur : Realtime.current { x with store := w } = x.current := rfl
  refine ⟨hall, hc, ?_, h.notBefore, ?_, ?_, fun l hl => (h.link l hl).grow h.sent hw⟩
  · show x.sent ≤ w.events.length
    have := h.sent
    rw [hw, List.length_append]
    omega
  · have := h.reached
    show x.current = start ∨ x.current ≤ w.cursor
    omega
  · intro e he hs hce
    rw [hcur] at hce
    rw [addressed_grow hw] at he
    rcases List.mem_append.mp he with he | he
    · exact h.seen e he hs hce
    · -- a new event is above every cursor the client went by
      obtain ⟨entry, hentry, rfl⟩ := List.mem_map.mp he
      obtain ⟨hmap, hlen⟩ := hnum.cursors hc
      have hmem : entry.event.cursor ∈ List.range' (x.store.cursor + 1) new.length := by
        rw [← hmap]
        exact List.mem_map_of_mem (List.mem_filter.mp hentry).1
      rw [List.mem_range'_1] at hmem
      have := h.reached
      omega

theorem Tracking.publish (h : Tracking user start x) (hlt : x.sent < x.store.events.length) :
    Tracking user start { x with sent := x.sent + 1 } := by
  refine ⟨h.numbered, h.bounded, hlt, h.notBefore, h.reached, h.seen, fun l hl => ?_⟩
  have hok := h.link l hl
  exact ⟨fun n hn => Nat.le_succ_of_le (hok.upTo n hn), hok.quiet, hok.subscribed, hok.ordered, hok.forwarded,
    hok.welcomeFirst, hok.welcomeOnce, hok.page, hok.next, hok.behind, hok.covered⟩

theorem Tracking.connect (h : Tracking user start x) (hl : x.link = none) :
    Tracking user start { x with link := some ⟨none, false, [], .listening⟩ } := by
  have hcur := current_none hl
  refine ⟨h.numbered, h.bounded, h.sent, h.notBefore, ?_, ?_, ?_⟩
  · exact hcur ▸ h.reached
  · exact fun e he hs hc => h.seen e he hs (hcur ▸ hc)
  · rintro l ⟨⟩
    constructor
    · intro n hn; cases hn
    · intro _; exact ⟨rfl, rfl⟩
    · intro hw; cases hw
    · exact List.Pairwise.nil
    · intro e he; cases he
    · intro latest hm; cases hm
    · intro hp; exact absurd rfl hp
    · exact ⟨_, rfl⟩
    · intro c page hp; cases hp
    · exact Nat.le_refl _
    · intro hw; cases hw

theorem Tracking.subscribe (h : Tracking user start x) (hl : x.link = some link)
    (hr : link.receiver = none) :
    Tracking user start { x with link := some { link with receiver := some x.sent } } := by
  have hok := h.link link hl
  have hno : ∀ e, .event e ∉ link.wire := by
    intro e he
    obtain ⟨n, hn, -⟩ := hok.forwarded e he
    rw [hr] at hn
    cases hn
  have hquiet : link.welcomed ≠ true := fun hw => hok.subscribed hw hr
  refine h.relink hl rfl ⟨?_, hok.quiet, fun hw => absurd hw hquiet, hok.ordered,
    fun e he => absurd he (hno e), hok.welcomeFirst, hok.welcomeOnce, hok.page, hok.next, hok.behind,
    fun hw => absurd hw hquiet⟩
  rintro n ⟨⟩
  exact Nat.le_refl _

/-- Everything received so far is below the `Welcome`. -/
theorem Tracking.welcome (h : Tracking user start x) (hl : x.link = some link)
    (hw : link.welcomed = false) (hr : link.receiver ≠ none) :
    Tracking user start { x with link := some { link with
      welcomed := true
      wire := link.wire ++ [.welcome x.store.cursor] } } := by
  have hok := h.link link hl
  obtain ⟨hwire, hphase⟩ := hok.quiet hw
  refine h.relink hl rfl ⟨hok.upTo, fun hw => (nomatch hw), fun _ => hr, ?_, ?_, ?_,
    fun hp => absurd hphase hp, hok.page, hok.next, hok.behind, ?_⟩
  · rw [hwire]; exact List.Pairwise.nil
  · intro e he
    simp [hwire] at he
  · intro latest hm
    simp [hwire] at hm
  · intro _ n hn e he
    have hle := addressed_le_cursor h.numbered h.bounded (addressedUpTo_subset he)
    by_cases hlt : x.cursor < x.store.cursor
    · exact .inr (.inr (.inr (.inl ⟨x.store.cursor, by simp, hlt⟩)))
    · refine .inl ?_
      show e.cursor ≤ link.cursorFrom x.cursor
      have := hok.behind
      omega

theorem receive_phase {link' : Link} {events : List UserEvent} {sent : Nat}
    (hs : link.receive user events sent = some link') : link'.phase = link.phase := by
  unfold Link.receive at hs
  split at hs
  · split at hs
    · cases hs; rfl
    · split at hs
      · split at hs <;> cases hs
        rfl
      · cases hs
  · cases hs

/-- What the server's loop does with one entry, or with the news that its receiver lagged. -/
theorem Tracking.receive (h : Tracking user start x) (hl : x.link = some link) {link' : Link}
    (hattentive : ∀ n ∈ link.receiver, channelCapacity < x.sent - n →
      ∀ e ∈ addressedUpTo x.store.toStore user (x.sent - channelCapacity),
        e ∉ addressedUpTo x.store.toStore user n →
        e.cursor ≤ link.cursorFrom x.cursor ∨ e ∈ link.pending ∨ link.ToFetch x.cursor)
    (hstep : link.receive user x.store.events x.sent = some link') :
    Tracking user start { x with link := some link' } := by
  have hok := h.link link hl
  unfold Link.receive at hstep
  split at hstep
  · rename_i next hw hr
    have hnext := hok.upTo next hr
    have hcovered := hok.covered hw next hr
    have hnq : link.welcomed ≠ false := by simp [hw]
    split at hstep
    · rename_i hlag
      cases hstep
      refine h.relink hl rfl ⟨?_, hok.quiet, fun _ he => (nomatch he), hok.ordered, ?_,
        hok.welcomeFirst, hok.welcomeOnce, hok.page, hok.next, hok.behind, ?_⟩
      · intro n hn
        rw [← Option.mem_some_iff.mp hn]
        exact Nat.sub_le _ _
      · intro e he
        obtain ⟨n, hn, hmem⟩ := hok.forwarded e he
        have hn : n = next := Option.some.inj (hn.symm.trans hr)
        exact ⟨_, rfl, addressedUpTo_mono (by omega) hmem⟩
      · intro _ n hn e he
        rw [← Option.mem_some_iff.mp hn] at he
        by_cases hold : e ∈ addressedUpTo x.store.toStore user next
        · exact (hcovered e hold).mono rfl fun f hf => hf
        · rcases hattentive next hr hlag e he hold with h' | h' | h'
          · exact .inl h'
          · exact .inr (.inl h')
          · exact .inr (.inr (.inr h'))
    · split at hstep
      · rename_i hlt
        split at hstep
        · cases hstep
        · rename_i entry hentry
          cases hstep
          have hforwarded : ∀ e, .event e ∈ link.wire →
              e ∈ addressedUpTo x.store.toStore user next := by
            intro e he
            obtain ⟨n, hn, hmem⟩ := hok.forwarded e he
            rwa [← Option.some.inj (hn.symm.trans hr)]
          have hsucc : addressedUpTo x.store.toStore user (next + 1) =
              addressedUpTo x.store.toStore user next ++
                if entry.addressedTo user then [entry.event] else [] := addressedUpTo_succ hentry
          by_cases hto : entry.addressedTo user = true
          · simp only [hto, if_true] at hsucc ⊢
            refine h.relink hl rfl ⟨?_, fun hq => absurd hq hnq, fun _ he => (nomatch he),
              ?_, ?_, ?_, ?_, hok.page, hok.next, hok.behind, ?_⟩
            · rintro n ⟨⟩; exact hlt
            · rw [List.filterMap_append]
              refine Paging.Increasing.append.mpr ⟨hok.ordered, List.pairwise_singleton _ _, ?_⟩
              intro e he e' he'
              obtain ⟨f, hf, hfe⟩ := List.mem_filterMap.mp he
              obtain rfl : e' = entry.event := by simpa [Frame.event?] using he'
              cases f with
              | welcome latest => cases hfe
              | event e₁ =>
                obtain rfl : e₁ = e := Option.some.inj hfe
                exact addressedUpTo_lt h.increasing hentry (hforwarded e₁ hf)
            · intro e he
              refine ⟨next + 1, rfl, ?_⟩
              rw [hsucc]
              rcases List.mem_append.mp he with he | he
              · exact List.mem_append_left _ (hforwarded e he)
              · cases List.mem_singleton.mp he
                exact List.mem_append_right _ (List.mem_singleton_self _)
            · intro latest hm
              cases hwire : link.wire with
              | nil => simp [hwire] at hm
              | cons f wire =>
                have := hok.welcomeFirst latest
                simp [hwire] at hm this
                exact this hm
            · intro hp latest hm
              exact hok.welcomeOnce hp latest (by simpa using hm)
            · rintro - n ⟨⟩ e he
              rw [hsucc] at he
              rcases List.mem_append.mp he with he | he
              · exact (hcovered e he).mono rfl fun f hf => List.mem_append_left _ hf
              · cases List.mem_singleton.mp he
                exact .inr (.inr (.inl (List.mem_append_right _ (List.mem_singleton_self _))))
          · simp only [hto, Bool.false_eq_true, if_false, List.append_nil] at hsucc ⊢
            refine h.relink hl rfl ⟨?_, fun hq => absurd hq hnq, fun _ he => (nomatch he),
              hok.ordered, ?_, hok.welcomeFirst, hok.welcomeOnce, hok.page, hok.next, hok.behind, ?_⟩
            · rintro n ⟨⟩; exact hlt
            · intro e he
              exact ⟨next + 1, rfl, hsucc ▸ hforwarded e he⟩
            · rintro - n ⟨⟩ e he
              rw [hsucc] at he
              exact (hcovered e he).mono rfl fun f hf => hf
      · cases hstep
  · cases hstep

/-- A `Welcome` starts the loop where it is above the cursor; otherwise nothing is missing. -/
theorem Tracking.readWelcome (h : Tracking user start x) (hl : x.link = some link) {latest : Nat}
    {wire : List Frame} (hphase : link.phase = .listening)
    (hwire : link.wire = .welcome latest :: wire) :
    Tracking user start { x with link := some { link with
      wire := wire
      phase := if latest > x.cursor then .syncing x.cursor none else .listening } } := by
  have hok := h.link link hl
  have hw : link.welcomed ≠ false := by
    intro hq
    rw [(hok.quiet hq).1] at hwire
    cases hwire
  have hcur : link.cursorFrom x.cursor = x.cursor := by simp [Link.cursorFrom, hphase]
  have hpending : link.pending = [] := by simp [Link.pending, hphase]
  have hordered := hok.ordered
  have hfirst := hok.welcomeFirst
  rw [hwire] at hordered hfirst
  have hforwarded : ∀ e, .event e ∈ wire → ∃ n ∈ link.receiver,
      e ∈ addressedUpTo x.store.toStore user n := fun e he =>
    hok.forwarded e (hwire ▸ List.mem_cons_of_mem _ he)
  have htail : ∀ latest', .welcome latest' ∉ wire.tail := fun latest' hm =>
    hfirst latest' (List.mem_of_mem_tail hm)
  by_cases hlt : latest > x.cursor
  · simp only [hlt, if_true]
    refine h.relink hl hcur.symm ⟨hok.upTo, fun hq => absurd hq hw, hok.subscribed, hordered,
      hforwarded, htail, fun _ => hfirst, ⟨_, rfl⟩, fun c page hp => (nomatch hp), Nat.le_refl _, ?_⟩
    intro _ n _ e _
    exact .inr (.inr (.inr (.inr trivial)))
  · simp only [hlt, if_false]
    refine h.relink hl hcur.symm ⟨hok.upTo, fun hq => absurd hq hw, hok.subscribed, hordered,
      hforwarded, htail, fun hp => absurd rfl hp, ⟨_, rfl⟩, fun c page hp => (nomatch hp),
      Nat.le_refl _, ?_⟩
    intro hw n hn e he
    rcases hok.covered hw n hn e he with hc | hc | hc | ⟨latest', hm, hlt'⟩ | hc
    · exact .inl (hcur ▸ hc)
    · rw [hpending] at hc; cases hc
    · rw [hwire] at hc
      rcases List.mem_cons.mp hc with hc | hc
      · cases hc
      · exact .inr (.inr (.inl hc))
    · rw [hwire] at hm
      rcases List.mem_cons.mp hm with hm | hm
      · cases hm
        exact absurd hlt' hlt
      · exact absurd hm (hfirst latest')
    · rw [hphase] at hc; exact hc.elim

/-- After an event frame, with a cursor not below it. -/
theorem LinkOk.readEvent {s : Store} {sent cursor cursor' : Nat}
    (h : LinkOk user s sent cursor link) {event : SyncEvent} {wire : List Frame}
    (hphase : link.phase = .listening) (hwire : link.wire = .event event :: wire)
    (hle : cursor ≤ cursor') (hevent : event.cursor ≤ cursor') :
    LinkOk user s sent cursor' { link with wire := wire } := by
  have hw : link.welcomed ≠ false := by
    intro hq
    rw [(h.quiet hq).1] at hwire
    cases hwire
  have hcur : ∀ c, link.cursorFrom c = c := by simp [Link.cursorFrom, hphase]
  have hpending : link.pending = [] := by simp [Link.pending, hphase]
  have hordered := h.ordered
  have hfirst := h.welcomeFirst
  rw [hwire] at hordered hfirst
  refine ⟨h.upTo, fun hq => absurd hq hw, h.subscribed, ?_, ?_, ?_, fun hp => absurd hphase hp, ?_,
    h.next, ?_, ?_⟩
  · exact (List.pairwise_cons.mp hordered).2
  · exact fun e he => h.forwarded e (hwire ▸ List.mem_cons_of_mem _ he)
  · exact fun latest hm => hfirst latest (List.mem_of_mem_tail hm)
  · exact ⟨_, (congrArg (· ++ _) hpending).symm⟩
  · exact Nat.le_of_eq (hcur cursor').symm
  · intro hw n hn e he
    rcases h.covered hw n hn e he with hc | hc | hc | ⟨latest, hm, -⟩ | hc
    · rw [hcur] at hc
      exact .inl ((hcur cursor').symm ▸ hc.trans hle)
    · rw [hpending] at hc; cases hc
    · rw [hwire] at hc
      rcases List.mem_cons.mp hc with hc | hc
      · cases hc
        exact .inl ((hcur cursor').symm ▸ hevent)
      · exact .inr (.inr (.inl hc))
    · rw [hwire] at hm
      rcases List.mem_cons.mp hm with hm | hm
      · cases hm
      · exact absurd hm (hfirst latest)
    · rw [hphase] at hc; exact hc.elim

/-- The client hands over the next event above what it went by. -/
theorem Tracking.seen_next (h : Tracking user start x) {event : SyncEvent}
    (hnext : ∀ e ∈ addressed x.store.toStore user, x.current < e.cursor →
      e.cursor ≤ event.cursor → e = event) :
    ∀ e ∈ addressed x.store.toStore user, start < e.cursor → e.cursor ≤ event.cursor →
      e ∈ x.handed ++ [event] := by
  intro e he hs hc
  by_cases hcur : e.cursor ≤ x.current
  · exact List.mem_append_left _ (h.seen e he hs hcur)
  · rw [hnext e he (by omega) hc]
    exact List.mem_append_right _ (List.mem_singleton_self _)

/-- An event frame above the cursor is the next event for the user: all before it came earlier on
the wire. -/
theorem Tracking.frame_next (h : Tracking user start x) (hl : x.link = some link)
    {event : SyncEvent} {wire : List Frame} (hphase : link.phase = .listening)
    (hwire : link.wire = .event event :: wire) :
    event ∈ addressed x.store.toStore user ∧
      ∀ e ∈ addressed x.store.toStore user, x.cursor < e.cursor → e.cursor ≤ event.cursor →
        e = event := by
  have hok := h.link link hl
  have hinc := addressed_increasing h.increasing user
  obtain ⟨n, hn, hmem⟩ := hok.forwarded event (hwire ▸ List.mem_cons_self)
  have hw : link.welcomed = true := by
    by_contra hq
    rw [(hok.quiet (Bool.eq_false_iff.mpr hq)).1] at hwire
    cases hwire
  refine ⟨addressedUpTo_subset hmem, fun e he hgt hle => ?_⟩
  by_cases heq : e.cursor = event.cursor
  · exact hinc.eq_of_key he (addressedUpTo_subset hmem) heq
  · have hbelow := addressedUpTo_below h.increasing hmem he (by omega)
    have hordered := hok.ordered
    have hfirst := hok.welcomeFirst
    rw [hwire] at hordered hfirst
    rcases hok.covered hw n hn e hbelow with hc | hc | hc | ⟨latest, hm, -⟩ | hc
    · have : e.cursor ≤ x.cursor := by simpa [Link.cursorFrom, hphase] using hc
      omega
    · simp [Link.pending, hphase] at hc
    · rw [hwire] at hc
      rcases List.mem_cons.mp hc with hc | hc
      · cases hc; rfl
      · have hgt : event.cursor < e.cursor := (List.pairwise_cons.mp hordered).1 e
          (List.mem_filterMap.mpr ⟨_, hc, rfl⟩)
        omega
    · rw [hwire] at hm
      rcases List.mem_cons.mp hm with hm | hm
      · cases hm
      · exact absurd hm (hfirst latest)
    · rw [hphase] at hc; exact hc.elim

theorem Tracking.readEvent (h : Tracking user start x) (hl : x.link = some link) {event : SyncEvent}
    {wire : List Frame} (hphase : link.phase = .listening)
    (hwire : link.wire = .event event :: wire) (hlt : event.cursor > x.cursor) :
    Tracking user start { x with
      cursor := event.cursor
      handed := x.handed ++ [event]
      link := some { link with wire := wire } } := by
  have hcur : x.current = x.cursor := by
    rw [Tracking.current_eq hl]; simp [Link.cursorFrom, hphase]
  have hcur' : Realtime.current { x with
      cursor := event.cursor
      handed := x.handed ++ [event]
      link := some { link with wire := wire } } = event.cursor := by
    rw [Tracking.current_eq rfl]; simp [Link.cursorFrom, hphase]
  obtain ⟨hmem, hnext⟩ := h.frame_next hl hphase hwire
  refine ⟨h.numbered, h.bounded, h.sent, ?_, ?_, ?_, ?_⟩
  · exact h.notBefore.trans (Nat.le_of_lt hlt)
  · rw [hcur']
    exact .inr (addressed_le_cursor h.numbered h.bounded hmem)
  · rw [hcur']
    exact h.seen_next (hcur ▸ hnext)
  · rintro l ⟨⟩
    exact (h.link link hl).readEvent hphase hwire (Nat.le_of_lt hlt) (Nat.le_refl _)

/-- The event of the frame was handed over before. -/
theorem Tracking.skipEvent (h : Tracking user start x) (hl : x.link = some link) {event : SyncEvent}
    {wire : List Frame} (hphase : link.phase = .listening)
    (hwire : link.wire = .event event :: wire) (hle : ¬ event.cursor > x.cursor) :
    Tracking user start { x with link := some { link with wire := wire } } :=
  h.relink hl rfl
    ((h.link link hl).readEvent hphase hwire (Nat.le_refl _) (Nat.le_of_not_lt hle))

theorem Tracking.fetchPage (h : Tracking user start x) (hl : x.link = some link) {cursor : Nat}
    (hphase : link.phase = .syncing cursor none) :
    Tracking user start { x with link := some { link with
      phase := .syncing cursor (some (sync x.store.toStore user cursor catchUpLimit)) } } := by
  have hok := h.link link hl
  have hcur : link.cursorFrom x.cursor = cursor := by simp [Link.cursorFrom, hphase]
  have hw : link.welcomed ≠ false := by
    intro hq
    rw [(hok.quiet hq).2] at hphase
    cases hphase
  have hpage : Paging.above (·.cursor) cursor (addressed x.store.toStore user) =
      (sync x.store.toStore user cursor catchUpLimit).events ++
        (eventsAfter x.store.toStore user cursor).drop (pageSize catchUpLimit) := by
    rw [← eventsAfter_eq_above, sync_events, List.take_append_drop]
  refine h.relink hl hcur.symm ⟨hok.upTo, fun hq => absurd hq hw, hok.subscribed, hok.ordered,
    hok.forwarded, hok.welcomeFirst, fun _ => hok.welcomeOnce (by simp [hphase]), ⟨_, hpage⟩, ?_,
    hcur ▸ hok.behind, ?_⟩
  · intro c page hp
    cases hp
    exact Nat.le_of_eq (sync_nextCursor h.increasing)
  · intro _ n _ e he
    by_cases hmore : (sync x.store.toStore user cursor catchUpLimit).hasMore = true
    · exact .inr (.inr (.inr (.inr hmore)))
    · by_cases hc : e.cursor ≤ cursor
      · exact .inl hc
      · refine .inr (.inl ?_)
        show e ∈ (sync x.store.toStore user cursor catchUpLimit).events
        have hle : (eventsAfter x.store.toStore user cursor).length ≤ pageSize catchUpLimit :=
          Nat.le_of_not_lt fun hlt => hmore (sync_hasMore.mpr hlt)
        rw [sync_events, List.take_of_length_le hle, eventsAfter_eq_above]
        exact Paging.mem_above.mpr ⟨addressedUpTo_subset he, Nat.lt_of_not_le hc⟩

theorem Tracking.handOver (h : Tracking user start x) (hl : x.link = some link) {cursor next : Nat}
    {event : SyncEvent} {events : List SyncEvent} {more : Bool}
    (hphase : link.phase = .syncing cursor (some ⟨event :: events, next, more⟩)) :
    Tracking user start { x with
      handed := x.handed ++ [event]
      link := some { link with
        phase := .syncing (max cursor event.cursor) (some ⟨events, next, more⟩) } } := by
  have hok := h.link link hl
  have hinc := addressed_increasing h.increasing user
  have hcur : link.cursorFrom x.cursor = cursor := by simp [Link.cursorFrom, hphase]
  have hw : link.welcomed ≠ false := by
    intro hq
    rw [(hok.quiet hq).2] at hphase
    cases hphase
  obtain ⟨rest, hpage⟩ := hok.page
  have hpending : link.pending = event :: events := by simp [Link.pending, hphase]
  rw [hcur, hpending, List.cons_append] at hpage
  have hmem := Paging.mem_above.mp (hpage ▸ List.mem_cons_self :
    event ∈ Paging.above (·.cursor) cursor (addressed x.store.toStore user))
  have hmax : max cursor event.cursor = event.cursor := Nat.max_eq_right (Nat.le_of_lt hmem.2)
  have hxcur : x.current = cursor := by rw [Tracking.current_eq hl, hcur]
  rw [hmax]
  have hbehind : x.cursor ≤ cursor := hcur ▸ hok.behind
  refine ⟨h.numbered, h.bounded, h.sent, h.notBefore, ?_, ?_, ?_⟩
  · exact .inr (addressed_le_cursor h.numbered h.bounded hmem.1)
  · refine h.seen_next fun e he hgt hle => ?_
    rw [hxcur] at hgt
    exact hinc.eq_of_above hpage he hgt hle
  · rintro l ⟨⟩
    refine ⟨hok.upTo, fun hq => absurd hq hw, hok.subscribed, hok.ordered, hok.forwarded,
      hok.welcomeFirst, fun _ => hok.welcomeOnce (by simp [hphase]), ⟨rest, hinc.above_tail hpage⟩,
      ?_, ?_, ?_⟩
    · rintro c page ⟨⟩
      have := hok.next cursor _ hphase
      simpa [Paging.advance, hmax] using this
    · exact hbehind.trans (Nat.le_of_lt hmem.2)
    · intro hw n hn e he
      rcases hok.covered hw n hn e he with hc | hc | hc | ⟨latest, hm, -⟩ | hc
      · rw [hcur] at hc
        exact .inl (hc.trans (Nat.le_of_lt hmem.2))
      · rw [hpending] at hc
        rcases List.mem_cons.mp hc with rfl | hc
        · exact .inl (Nat.le_refl _)
        · exact .inr (.inl hc)
      · exact .inr (.inr (.inl hc))
      · exact absurd hm (hok.welcomeOnce (by simp [hphase]) latest)
      · rw [hphase] at hc
        exact .inr (.inr (.inr (.inr hc)))

/-- `next_cursor` does not go beyond the events of the page. -/
theorem LinkOk.max_next {s : Store} {sent cursor c next : Nat} {more : Bool}
    (h : LinkOk user s sent cursor link)
    (hphase : link.phase = .syncing c (some ⟨[], next, more⟩)) : max c next = c := by
  have hle : next ≤ c := h.next c _ hphase
  exact Nat.max_eq_left hle

theorem Tracking.nextPage (h : Tracking user start x) (hl : x.link = some link) {cursor next : Nat}
    (hphase : link.phase = .syncing cursor (some ⟨[], next, true⟩)) :
    Tracking user start { x with link := some { link with
      phase := .syncing (max cursor next) none } } := by
  have hok := h.link link hl
  have hcur : link.cursorFrom x.cursor = cursor := by simp [Link.cursorFrom, hphase]
  have hw : link.welcomed ≠ false := by
    intro hq
    rw [(hok.quiet hq).2] at hphase
    cases hphase
  rw [hok.max_next hphase]
  refine h.relink hl hcur.symm ⟨hok.upTo, fun hq => absurd hq hw, hok.subscribed, hok.ordered,
    hok.forwarded, hok.welcomeFirst, fun _ => hok.welcomeOnce (by simp [hphase]), ⟨_, rfl⟩,
    fun c page hp => (nomatch hp), hcur ▸ hok.behind, ?_⟩
  intro _ n _ e _
  exact .inr (.inr (.inr (.inr trivial)))

theorem Tracking.lastPage (h : Tracking user start x) (hl : x.link = some link) {cursor next : Nat}
    (hphase : link.phase = .syncing cursor (some ⟨[], next, false⟩)) :
    Tracking user start { x with
      cursor := max cursor next
      link := some { link with phase := .listening } } := by
  have hok := h.link link hl
  have hcur : link.cursorFrom x.cursor = cursor := by simp [Link.cursorFrom, hphase]
  have hxcur : x.current = cursor := by rw [Tracking.current_eq hl, hcur]
  have hw : link.welcomed ≠ false := by
    intro hq
    rw [(hok.quiet hq).2] at hphase
    cases hphase
  rw [hok.max_next hphase]
  refine ⟨h.numbered, h.bounded, h.sent, ?_, ?_, ?_, ?_⟩
  · exact h.notBefore.trans (hcur ▸ hok.behind)
  · exact hxcur ▸ h.reached
  · exact fun e he hs hc => h.seen e he hs (hxcur ▸ hc)
  · rintro l ⟨⟩
    refine ⟨hok.upTo, fun hq => absurd hq hw, hok.subscribed, hok.ordered, hok.forwarded,
      hok.welcomeFirst, fun hp => absurd rfl hp, ⟨_, rfl⟩, fun c page hp => (nomatch hp),
      Nat.le_refl _, ?_⟩
    intro hw n hn e he
    rcases hok.covered hw n hn e he with hc | hc | hc | ⟨latest, hm, -⟩ | hc
    · rw [hcur] at hc
      exact .inl hc
    · simp [Link.pending, hphase] at hc
    · exact .inr (.inr (.inl hc))
    · exact absurd hm (hok.welcomeOnce (by simp [hphase]) latest)
    · rw [hphase] at hc
      cases hc

/-! ## Every step -/

/-- A receiver that lags skips no event that the client needs and will not fetch or be handed over
anyway. -/
def Attentive (user : UserId) (x : Realtime) (l : RealtimeStep) : Prop :=
  l = .receive → ∀ link ∈ x.link, ∀ n ∈ link.receiver, channelCapacity < x.sent - n →
    ∀ e ∈ addressedUpTo x.store.toStore user (x.sent - channelCapacity),
      e ∉ addressedUpTo x.store.toStore user n →
      e.cursor ≤ link.cursorFrom x.cursor ∨ e ∈ link.pending ∨ link.ToFetch x.cursor

/-- A catch-up breaks off only before it handed anything over. -/
def Unbroken (x : Realtime) (l : RealtimeStep) : Prop := l = .fetchFailed → x.current = x.cursor

/-- The client hands over nothing, or the next event for the user. -/
def Hands (user : UserId) (x x' : Realtime) : Prop :=
  (x'.handed = x.handed ∧ x.current ≤ x'.current) ∨
  ∃ event ∈ addressed x.store.toStore user, x'.handed = x.handed ++ [event] ∧
    x.current < event.cursor ∧ x'.current = event.cursor

theorem Hands.relink {link' : Link} (hl : x.link = some link)
    (hcursor : link'.cursorFrom x.cursor = link.cursorFrom x.cursor) :
    Hands user x { x with link := some link' } := by
  refine .inl ⟨rfl, Nat.le_of_eq ?_⟩
  rw [Tracking.current_eq hl, Tracking.current_eq rfl]
  exact hcursor.symm

theorem Tracking.catchUpStep (h : Tracking user start x) (hl : x.link = some link)
    {l : RealtimeStep} (hs : x.catchUpStep user link l = some x') :
    Tracking user start x' ∧ (Unbroken x l → Hands user x x') := by
  have hcur := Tracking.current_eq hl
  cases l <;> simp only [Realtime.catchUpStep] at hs
  case fetchPage =>
    split at hs <;> cases hs
    rename_i cursor hphase
    exact ⟨h.fetchPage hl hphase, fun _ => .relink hl (by simp [Link.cursorFrom, hphase])⟩
  case fetchFailed =>
    split at hs <;> cases hs
    exact ⟨h.unlink, fun hu => .inl ⟨rfl, Nat.le_of_eq (hu rfl)⟩⟩
  case handOver =>
    split at hs <;> cases hs
    rename_i cursor event events next more hphase
    have hxcur : x.current = cursor := by rw [hcur]; simp [Link.cursorFrom, hphase]
    obtain ⟨rest, hpage⟩ := (h.link link hl).page
    rw [← hcur, hxcur] at hpage
    have hmem : event ∈ Paging.above (·.cursor) cursor (addressed x.store.toStore user) := by
      rw [hpage]
      simp [Link.pending, hphase]
    obtain ⟨hmem, hlt⟩ := Paging.mem_above.mp hmem
    refine ⟨h.handOver hl hphase, fun _ => .inr ⟨event, hmem, rfl, hxcur ▸ hlt, ?_⟩⟩
    exact Nat.max_eq_right (Nat.le_of_lt hlt)
  case pageDone =>
    split at hs
    · rename_i cursor next more hphase
      have hnext := (h.link link hl).max_next hphase
      have hxcur : x.current = cursor := by rw [hcur]; simp [Link.cursorFrom, hphase]
      split at hs <;> cases hs
      · rename_i hmore
        rw [hmore] at hphase
        refine ⟨h.nextPage hl hphase, fun _ => .relink hl ?_⟩
        simp [Link.cursorFrom, hphase, hnext]
      · rename_i hmore
        rw [Bool.eq_false_iff.mpr hmore] at hphase
        refine ⟨h.lastPage hl hphase, fun _ => .inl ⟨rfl, Nat.le_of_eq ?_⟩⟩
        show x.current = max cursor next
        rw [hxcur, hnext]
    · cases hs
  all_goals cases hs

theorem Tracking.handleServerFrame (h : Tracking user start x) (hl : x.link = some link)
    (hs : x.handleServerFrame link = some x') : Tracking user start x' ∧ Hands user x x' := by
  have hcur := Tracking.current_eq hl
  unfold Realtime.handleServerFrame at hs
  split at hs
  · rename_i latest wire hphase hwire
    cases hs
    refine ⟨h.readWelcome hl hphase hwire, .relink hl ?_⟩
    by_cases hlt : latest > x.cursor <;> simp [Link.cursorFrom, hphase, hlt]
  · rename_i event wire hphase hwire
    have hxcur : x.current = x.cursor := by rw [hcur]; simp [Link.cursorFrom, hphase]
    split at hs <;> cases hs
    · rename_i hlt
      refine ⟨h.readEvent hl hphase hwire hlt, .inr ⟨event, (h.frame_next hl hphase hwire).1, rfl,
        hxcur ▸ hlt, ?_⟩⟩
      rw [Tracking.current_eq rfl]
      simp [Link.cursorFrom, hphase]
    · rename_i hle
      exact ⟨h.skipEvent hl hphase hwire hle, .relink hl rfl⟩
  · cases hs

/-- **Step.** -/
theorem Tracking.step (h : Tracking user start x) {l : RealtimeStep} (hok : Attentive user x l)
    (hs : x.step env user l = some x') (hb : x'.store.cursor < u64Max) :
    Tracking user start x' ∧ (Unbroken x l → Hands user x x') := by
  cases l <;> simp only [Realtime.step, Option.bind_eq_some_iff] at hs
  case mutate op =>
    split at hs <;> cases hs
    rename_i store hr
    obtain ⟨new, hnew, hnum⟩ := ((op.evolves env).runs hr).log
    exact ⟨h.mutate hnew hnum hb, fun _ => .inl ⟨rfl, Nat.le_refl _⟩⟩
  case publish =>
    split at hs <;> cases hs
    exact ⟨h.publish ‹_›, fun _ => .inl ⟨rfl, Nat.le_refl _⟩⟩
  case connect =>
    split at hs <;> cases hs
    rename_i hl
    exact ⟨h.connect hl, fun _ => .inl ⟨rfl, Nat.le_of_eq (current_none hl)⟩⟩
  case subscribe =>
    obtain ⟨link, hl, hs⟩ := hs
    split at hs <;> cases hs
    exact ⟨h.subscribe hl ‹_›, fun _ => .relink hl rfl⟩
  case welcome =>
    obtain ⟨link, hl, hs⟩ := hs
    split at hs <;> cases hs
    rename_i hw hr
    exact ⟨h.welcome hl hw (by simp [hr]), fun _ => .relink hl rfl⟩
  case receive =>
    obtain ⟨link, hl, hs⟩ := hs
    obtain ⟨link', hreceive, hs⟩ := Option.map_eq_some_iff.mp hs
    cases hs
    refine ⟨h.receive hl (hok rfl link hl) hreceive, fun _ => .relink hl ?_⟩
    unfold Link.cursorFrom
    rw [receive_phase hreceive]
  case readFrame =>
    obtain ⟨link, hl, hs⟩ := hs
    obtain ⟨h', hh⟩ := h.handleServerFrame hl hs
    exact ⟨h', fun _ => hh⟩
  case disconnect =>
    obtain ⟨link, hl, hs⟩ := hs
    unfold Realtime.disconnect at hs
    split at hs <;> cases hs
    rename_i hphase
    refine ⟨h.unlink, fun _ => .inl ⟨rfl, Nat.le_of_eq ?_⟩⟩
    rw [Tracking.current_eq hl]
    simp [Link.cursorFrom, hphase, Realtime.current]
  all_goals
    obtain ⟨link, hl, hs⟩ := hs
    exact h.catchUpStep hl hs

end

/-! ## Main result -/

/-- The runs in which a receiver that lags skips nothing the client needs. -/
def attentiveRuns (env : Env) (user : UserId) (start : Nat) : LTS Realtime RealtimeStep :=
  (realtime env user start).restrict (Attentive user)

/-- Those in which besides no catch-up breaks off in the middle. -/
def unbrokenRuns (env : Env) (user : UserId) (start : Nat) : LTS Realtime RealtimeStep :=
  (attentiveRuns env user start).restrict Unbroken

section
variable {env : Env} {user : UserId} {start : Nat}

theorem tracking_init {x : Realtime} (h : (realtime env user start).init x) :
    Tracking user start x := by
  obtain ⟨hreach, hb, hsent, hl, rfl, -⟩ := h
  have hcur := current_none hl
  refine ⟨reachable_numbered hreach, hb, hsent, Nat.le_refl _, .inl hcur, ?_, ?_⟩
  · intro e _ hs hc
    omega
  · intro link hlink
    rw [hl] at hlink
    cases hlink

theorem tracking_inductive : (attentiveRuns env user start).Inductive (Tracking user start) where
  init _ h := tracking_init h
  step _ _ _ h hs := (h.step hs.1 hs.2.1 hs.2.2).1

/-- Everything was handed over in order, below the client's cursor. -/
structure InOrder (x : Realtime) : Prop where
  increasing : Paging.Increasing (·.cursor) x.handed
  below : ∀ e ∈ x.handed, e.cursor ≤ x.current

theorem InOrder.hands {x x' : Realtime} (h : InOrder x) (hh : Hands user x x') : InOrder x' := by
  rcases hh with ⟨he, hle⟩ | ⟨event, -, he, hlt, hcur⟩
  · exact ⟨he ▸ h.increasing, fun e hmem => (h.below e (he ▸ hmem)).trans hle⟩
  · constructor
    · rw [he]
      refine Paging.Increasing.append.mpr ⟨h.increasing, List.pairwise_singleton _ _, ?_⟩
      intro e hmem e' hmem'
      obtain rfl := List.mem_singleton.mp hmem'
      exact Nat.lt_of_le_of_lt (h.below e hmem) hlt
    · intro e hmem
      rw [hcur]
      rw [he] at hmem
      rcases List.mem_append.mp hmem with hmem | hmem
      · exact Nat.le_of_lt (Nat.lt_of_le_of_lt (h.below e hmem) hlt)
      · rw [List.mem_singleton.mp hmem]

theorem inOrder_inductive :
    (unbrokenRuns env user start).Inductive fun x => Tracking user start x ∧ InOrder x where
  init x h := by
    refine ⟨tracking_init h, ?_⟩
    obtain ⟨-, -, -, -, -, hnil⟩ := h
    constructor
    · rw [hnil]; exact List.Pairwise.nil
    · rw [hnil]; intro e he; cases he
  step x l x' h hs := by
    obtain ⟨h', hh⟩ := h.1.step hs.2.1 hs.2.2.1 hs.2.2.2
    exact ⟨h', h.2.hands (hh hs.1)⟩

/-- An event of an increasing list, alone at its cursor. -/
theorem InOrder.filter_cursor {x : Realtime} (h : InOrder x) {e : SyncEvent} (he : e ∈ x.handed) :
    x.handed.filter (fun e' => e'.cursor == e.cursor) = [e] := by
  have hnodup := h.increasing.nodup.filter fun e' => e'.cursor == e.cursor
  refine List.perm_singleton.mp ((List.perm_ext_iff_of_nodup hnodup (List.nodup_singleton e)).mpr ?_)
  intro e'
  rw [List.mem_filter, List.mem_singleton, beq_iff_eq]
  constructor
  · rintro ⟨hmem, hc⟩
    exact h.increasing.eq_of_key hmem he hc
  · rintro rfl
    exact ⟨he, rfl⟩

end

/-- **No event is lost.** In the attentive runs every event for the user from the start up to the
client's cursor was handed over, and exactly once if no catch-up broke off. -/
theorem no_event_lost (env : Env) (user : UserId) (start : Nat) :
    (∀ x, (attentiveRuns env user start).Reachable x →
      ∀ e ∈ addressed x.store.toStore user, start < e.cursor → e.cursor ≤ x.current →
        e ∈ x.handed) ∧
    (∀ x, (unbrokenRuns env user start).Reachable x →
      ∀ e ∈ addressed x.store.toStore user, start < e.cursor → e.cursor ≤ x.current →
        x.handed.filter (fun e' => e'.cursor == e.cursor) = [e]) := by
  refine ⟨fun x hx => (tracking_inductive.reachable hx).seen, fun x hx e he hs hc => ?_⟩
  obtain ⟨htracking, horder⟩ := inOrder_inductive.reachable hx
  exact horder.filter_cursor (htracking.seen e he hs hc)

/-- One step, as long as cursors are not used up. -/
def Realtime.next (env : Env) (user : UserId) (x : Realtime) (l : RealtimeStep) :
    Option Realtime :=
  (x.step env user l).filter fun x' => decide (x'.store.cursor < u64Max)

theorem step_of_next {env : Env} {user : UserId} {start : Nat} {x x' : Realtime} {l : RealtimeStep}
    (h : x.next env user l = some x') : (realtime env user start).step x l x' := by
  obtain ⟨hs, hb⟩ := Option.filter_eq_some_iff.mp h
  exact ⟨hs, of_decide_eq_true hb⟩

/-- A fresh server and a client that starts from 0. -/
def Realtime.fresh : Realtime := ⟨World.init, 0, none, 0, []⟩

theorem realtime_init (user : UserId) : (realtime Env.numbered user 0).init .fresh :=
  ⟨.init rfl, by decide, Nat.le_refl _, rfl, rfl, rfl⟩

/-- One event before the client connects: it is handed over by the catch-up. -/
theorem no_event_lost_one : ∃ x, ∃ e ∈ addressed x.store.toStore 7,
    (unbrokenRuns Env.numbered 7 0).Reachable x ∧ e.cursor = 1 ∧ x.current = 1 ∧
    x.handed.filter (fun e' => e'.cursor == e.cursor) = [e] := by
  obtain ⟨x, hx, hp⟩ := LTS.reaches_of_exec (M := unbrokenRuns Env.numbered 7 0)
    (realtime_init 7)
    [.mutate (.markAllRead 7 0), .connect, .subscribe, .welcome, .readFrame, .fetchPage, .handOver,
      .pageDone]
    (fun s l hl s' h => ⟨fun he => by subst he; simp at hl, fun he => by subst he; simp at hl,
      step_of_next h⟩)
    (fun x => x.current == 1 && (addressed x.store.toStore 7).any (·.cursor == 1))
    (by decide +kernel)
  simp only [Bool.and_eq_true, beq_iff_eq, List.any_eq_true] at hp
  obtain ⟨hcur, e, he, hc⟩ := hp
  exact ⟨x, e, he, hx, hc, hcur,
    (no_event_lost Env.numbered 7 0).2 x hx e he (by omega) (by omega)⟩

/-- Any number of events for the user, each sent at once; the connection sleeps. -/
theorem backlog {env : Env} {user : UserId} {start : Nat} (n : Nat) (x : Realtime)
    (hempty : x.store.conversations = .empty) (hsent : x.sent = x.store.events.length)
    (hb : x.store.cursor + n < u64Max) : ∃ ls w, (realtime env user start).Run x ls
      { x with store := w, sent := x.sent + n } ∧ w.events.length = x.sent + n ∧
      w.cursor = x.store.cursor + n ∧ ∃ new, w.events = x.store.events ++ new ∧
      Numbered x.store.cursor new w.cursor ∧ ∀ entry ∈ new, entry.addressedTo user = true := by
  induction n generalizing x with
  | zero =>
    exact ⟨[], x.store, .nil x, hsent.symm, rfl, [], (List.append_nil _).symm, rfl, by simp⟩
  | succ n ih =>
    -- marking everything read of no conversation is one event
    let entry : UserEvent := ⟨[user].toFinset, ⟨env.uuid x.store.nextUuid,
      saturatingSucc x.store.cursor, .readPositionUpdated, .allRead, 0⟩⟩
    obtain ⟨w, hr, hw⟩ : ∃ w, (markAllRead env user 0).Runs x.store () w ∧ w = { x.store with
        cursor := saturatingSucc x.store.cursor
        nextUuid := x.store.nextUuid + 1
        events := x.store.events ++ [entry] } := by
      refine ⟨_, ?_, rfl⟩
      unfold markAllRead
      rw [Tx.runs_get_bind, hempty]
      exact appendEvent_runs.mpr rfl
    have hlen : w.events.length = x.sent + 1 := by simp [hw, hsent]
    have hcursor : w.cursor = x.store.cursor + 1 := by
      simp only [hw]
      exact saturatingSucc_of_lt (by omega)
    have hmutate : (realtime env user start).step x (.mutate (.markAllRead user 0))
        { x with store := w } := by
      have hop : (Op.markAllRead user 0).run env x.store = .ok ((), w) :=
        Tx.runs_void.mpr ⟨(), hr⟩
      refine ⟨by simp [Realtime.step, hop], ?_⟩
      show w.cursor < u64Max
      omega
    have hpublish : (realtime env user start).step { x with store := w } .publish
        { x with store := w, sent := x.sent + 1 } := by
      refine ⟨by simp [Realtime.step, hlen], ?_⟩
      show w.cursor < u64Max
      omega
    obtain ⟨ls, w', hrun, hlen', hcursor', new, hnew, hnum, hto⟩ :=
      ih { x with store := w, sent := x.sent + 1 } (by simp only [hw]; exact hempty) hlen.symm
        (by simp only [hcursor]; omega)
    simp only [Nat.add_right_comm x.sent 1 n] at hrun hlen'
    refine ⟨_, w', .cons hmutate (.cons hpublish hrun), hlen', ?_, entry :: new, ?_, ?_, ?_⟩
    · simp only [hcursor] at hcursor'
      omega
    · rw [hnew, hw, List.append_assoc]
      rfl
    · rw [hw] at hnum
      exact ⟨rfl, hnum⟩
    · intro other hmem
      rcases List.mem_cons.mp hmem with rfl | hmem
      · simp [entry, UserEvent.addressedTo]
      · exact hto other hmem

/-- While the server's loop waits, 514 events are sent; its receiver loses the first two and the
loop goes on with the third. The client moves its cursor to 3 and never gets the others. -/
theorem lagging_receiver_loses_events : ∃ x, (realtime Env.numbered 7 0).Reachable x ∧
    ∃ e ∈ addressed x.store.toStore 7, 0 < e.cursor ∧ e.cursor ≤ x.current ∧ e ∉ x.handed := by
  let awake : Realtime := { Realtime.fresh with link := some ⟨some 0, true, [], .listening⟩ }
  have hconnect : (realtime Env.numbered 7 0).Run .fresh
      [.connect, .subscribe, .welcome, .readFrame] awake :=
    LTS.run_of_exec (fun _ _ _ _ => step_of_next) rfl
  obtain ⟨ls, w, hrun, hlen, hcursor, new, hnew, hnum, hto⟩ :
      ∃ ls w, (realtime Env.numbered 7 0).Run awake ls { awake with store := w, sent := 514 } ∧
      w.events.length = 514 ∧ w.cursor = 514 ∧ ∃ new, w.events = new ∧
      Numbered 0 new w.cursor ∧ ∀ entry ∈ new, entry.addressedTo 7 = true :=
    backlog 514 awake rfl rfl (by decide)
  subst hnew
  have hb : w.cursor < u64Max := by rw [hcursor]; decide
  have hat : ∀ i : Nat, i < 514 → ∃ entry, w.events[i]? = some entry ∧
      entry.event.cursor = i + 1 ∧ entry.addressedTo 7 = true := by
    intro i hi
    obtain ⟨entry, hentry⟩ : ∃ entry, w.events[i]? = some entry :=
      ⟨w.events[i], List.getElem?_eq_getElem (by omega)⟩
    have hmap := congrArg (·[i]?) (hnum.cursors hb).1
    simp only [List.getElem?_map, hentry, Option.map_some, hlen, Nat.zero_add,
      List.getElem?_range' hi, Option.some.injEq] at hmap
    exact ⟨entry, hentry, by omega, hto entry (List.mem_of_getElem? hentry)⟩
  obtain ⟨first, hfirst, hfirstCursor, hfirstTo⟩ := hat 0 (by decide)
  obtain ⟨third, hthird, hthirdCursor, hthirdTo⟩ := hat 2 (by decide)
  let lagged : Realtime := { awake with
    store := w
    sent := 514
    link := some ⟨some 2, true, [], .listening⟩ }
  let behind : Realtime := { lagged with
    link := some ⟨some 3, true, [.event third.event], .listening⟩ }
  let ahead : Realtime := { lagged with
    cursor := 3
    handed := [third.event]
    link := some ⟨some 3, true, [], .listening⟩ }
  have hlag : (realtime Env.numbered 7 0).step { awake with store := w, sent := 514 } .receive
      lagged := by
    refine ⟨?_, hb⟩
    simp [Realtime.step, awake, lagged, Link.receive, channelCapacity]
  have hreceive : (realtime Env.numbered 7 0).step lagged .receive behind := by
    refine ⟨?_, hb⟩
    simp [Realtime.step, lagged, behind, Link.receive, channelCapacity, hthird, hthirdTo]
  have hread : (realtime Env.numbered 7 0).step behind .readFrame ahead := by
    refine ⟨?_, hb⟩
    simp [Realtime.step, behind, ahead, lagged, awake, Realtime.fresh, Realtime.handleServerFrame,
      hthirdCursor]
  have hreach : (realtime Env.numbered 7 0).Reachable ahead :=
    ((((LTS.Reachable.init (realtime_init 7)).run hconnect).run hrun).step hlag).step hreceive
      |>.step hread
  refine ⟨ahead, hreach, first.event, ?_, ?_, ?_, ?_⟩
  · exact List.mem_map.mpr ⟨first, List.mem_filter.mpr ⟨List.mem_of_getElem? hfirst, hfirstTo⟩, rfl⟩
  · omega
  · show first.event.cursor ≤ 3
    omega
  · intro hmem
    rw [List.mem_singleton.mp hmem] at hfirstCursor
    omega

end IamRust
