import IamRust.L3Service.Client
import IamRust.L4Properties.Readers

/-!
# Loading the history

The server answers with the last messages below a cursor and the sequence of the
first of them; the client goes on from there until a page is not full.

* `historyPage_items`: a page is the last 50 of the messages below the cursor.
* `history_complete`: the pages put together are the unexpired messages, while
  nothing changes below the cursor.
-/
namespace IamRust

open Core

/-- The unexpired messages of the conversation, as they are shown to the user. -/
def shownTimeline (r : Store × DateTime) (u : UserId) (id : ConversationId) : List Message :=
  ((r.1.timeline id).filter (unexpired r.1 r.2)).map fun m =>
    { m with status := shownStatus r.1 u m }

/-- Those below the cursor. -/
def older (before : Option Nat) (l : List Message) : List Message :=
  l.filter fun m => before.all fun cursor => m.sequence.any fun seq => decide (seq < cursor)

/-- Each message has a sequence, a `u64`, and they increase strictly. -/
structure Sequenced (l : List Message) : Prop where
  bounded : ∀ m ∈ l, ∃ n < 2 ^ 64, m.sequence = some n
  increasing : Paging.Increasing (fun m : Message => m.sequence.getD 0) l

section
variable {requests : Nat → Store × DateTime} {u : UserId} {id : ConversationId} {k : Nat}
  {before : Option Nat}

theorem Sequenced.older {l : List Message} (h : Sequenced l) (before : Option Nat) :
    older before l = Paging.below (fun m => m.sequence.getD 0) before l := by
  refine List.filter_congr fun m hm => ?_
  obtain ⟨n, -, hn⟩ := h.bounded m hm
  cases before with
  | none => rfl
  | some cursor =>
    show m.sequence.any (fun seq => decide (seq < cursor)) = decide (m.sequence.getD 0 < cursor)
    rw [hn]
    rfl

/-- Neither the clock nor the viewer touches a sequence. -/
theorem Sequenced.shown {s : Store} {now : DateTime} (h : Sequenced (s.timeline id)) :
    Sequenced (shownTimeline (s, now) u id) where
  bounded m hm := by
    obtain ⟨m₀, hm₀, rfl⟩ := List.mem_map.mp hm
    exact h.bounded m₀ (List.mem_of_mem_filter hm₀)
  increasing := List.pairwise_map.mpr (List.Pairwise.filter _ h.increasing)

/-- The server's filter, reversed, cut and reversed again, is the last page below the cursor. -/
theorem messages_page {s : Store} {now : DateTime} (hread : s.readable u id = true) :
    messages s now u id before 50 =
      .ok (Paging.lastPage 50 (older before (shownTimeline (s, now) u id))) := by
  obtain ⟨c, hc, hmember⟩ := Store.readable_iff.mp hread
  have hok : readableConversation s u id = .ok c := by
    simp [readableConversation, hc, hmember]
  have hfilter : (s.timeline id).filter (fun m => unexpired s now m &&
      before.all fun cursor => m.sequence.any fun seq => decide (seq < cursor)) =
      older before ((s.timeline id).filter (unexpired s now)) := by
    rw [older, List.filter_filter]
    exact List.filter_congr fun m _ => Bool.and_comm _ _
  have hshown : older before (shownTimeline (s, now) u id) =
      (older before ((s.timeline id).filter (unexpired s now))).map fun m =>
        { m with status := shownStatus s u m } := by
    rw [older, shownTimeline, List.filter_map]
    rfl
  have hlimit : max 1 (min 50 maxMessagePage) = 50 := rfl
  rw [hshown, Paging.lastPage, List.length_map, ← List.map_drop, ← Paging.lastPage, ← hfilter,
    ← Paging.lastPage_eq_reverse, messages, hok, hlimit]
  rfl

theorem historyPage_items (hread : (requests k).1.readable u id = true) :
    (historyPage requests u id k before).items =
      Paging.lastPage 50 (older before (shownTimeline (requests k) u id)) := by
  unfold historyPage messagesHandler
  rw [Option.getD_some, messages_page hread]
  rfl

/-- The server's cursor is the sequence of the first message it returns. -/
theorem historyPage_nextCursor :
    (historyPage requests u id k before).nextCursor =
      ((historyPage requests u id k before).items.head?.bind (·.sequence)).map Nat.repr := by
  unfold historyPage messagesHandler
  cases messages (requests k).1 (requests k).2 u id before ((some 50).getD 50) with
  | error e => rfl
  | ok page => rfl

/-- The client asks for what is below the first message of a full page. -/
theorem pageNextCursor_eq {l : List Message} (h : Sequenced l) :
    pageNextCursor l ((l.head?.bind (·.sequence)).map Nat.repr) before =
      if l.length < 50 then none
      else (l.head?.map fun m => m.sequence.getD 0).filter fun cursor =>
        before.all fun before => decide (cursor < before) := by
  unfold pageNextCursor
  split
  · rfl
  cases l with
  | nil => rfl
  | cons m l =>
    obtain ⟨n, hn, hseq⟩ := h.bounded m List.mem_cons_self
    simp only [List.head?_cons, Option.bind_some, hseq, Option.map_some, parseU64_repr hn,
      Option.getD_some]

section
variable (requests u id)

/-- The page below a cursor, and the cursor the client takes from it: the reader of `Paging`. -/
def fetch (k : Nat) (before : Option Nat) : List Message :=
  (historyPage requests u id k before).items

def next (items : List Message) (before : Option Nat) : Option Nat :=
  pageNextCursor items ((items.head?.bind (·.sequence)).map Nat.repr) before

end

theorem historyCursor_eq (k : Nat) :
    historyCursor requests u id k = Paging.cursorAt (fetch requests u id) next k := by
  induction k with
  | zero => rfl
  | succ k ih =>
    rw [historyCursor, Paging.cursorAt, ih]
    simp only [historyPage_nextCursor]
    rfl

theorem history_eq (k : Nat) :
    history requests u id k = Paging.loaded (fetch requests u id) next k := by
  induction k with
  | zero => rfl
  | succ k ih =>
    rw [history, Paging.loaded, Paging.pageAt, ih, historyCursor_eq]
    rfl

/-- The pages below a cursor are sequenced, and below it. -/
theorem Sequenced.page {l : List Message} (h : Sequenced l) (before : Option Nat) :
    Sequenced (Paging.lastPage 50 (IamRust.older before l)) where
  bounded m hm := h.bounded m (List.mem_of_mem_filter (List.mem_of_mem_drop hm))
  increasing := (h.increasing.filter _).sublist (List.drop_sublist _ _)

theorem Sequenced.head_below {l : List Message} (h : Sequenced l) {m : Message}
    (hm : m ∈ Paging.lastPage 50 (IamRust.older before l)) :
    (before.all fun before => decide (m.sequence.getD 0 < before)) = true := by
  have hbelow := List.mem_of_mem_drop hm
  rw [h.older] at hbelow
  exact (List.mem_filter.mp hbelow).2

/-- **Complete history.** A client that reads the conversation at every request stops after one
page more than there are full ones, and the pages put together, the oldest in front, are the
unexpired messages: each once and in order. The requests may be answered from different stores, as
long as nothing changes below the cursor. -/
theorem history_complete (requests : Nat → Store × DateTime) (u : UserId) (id : ConversationId)
    (hread : ∀ k, (requests k).1.readable u id = true)
    (hsequenced : Sequenced ((requests 0).1.timeline id))
    (hquiet : ∀ k before, historyCursor requests u id k = some before →
      older before (shownTimeline (requests k) u id) =
        older before (shownTimeline (requests 0) u id)) :
    let l := shownTimeline (requests 0) u id
    (∀ k ≤ l.length / 50, historyCursor requests u id k ≠ none) ∧
      historyCursor requests u id (l.length / 50 + 1) = none ∧
      history requests u id (l.length / 50 + 1) = l := by
  intro l
  have hl : Sequenced l := hsequenced.shown
  simp only [historyCursor_eq] at hquiet ⊢
  rw [history_eq]
  have hpage : ∀ k before, Paging.cursorAt (fetch requests u id) next k = some before →
      fetch requests u id k before = Paging.lastPage 50 (older before l) := fun k before hcursor => by
    rw [fetch, historyPage_items (hread k), hquiet k before hcursor]
  refine Paging.backward_complete (by omega) hl.increasing (fun k before hcursor => ?_)
    fun k before hcursor => ?_
  · rw [hpage k before hcursor, hl.older]
  · rw [hpage k before hcursor, next, pageNextCursor_eq (hl.page before)]
    split
    · rfl
    -- a full page starts below the cursor
    cases hhead : (Paging.lastPage 50 (older before l)).head? with
    | none => rfl
    | some m =>
      have hbelow := hl.head_below (List.mem_of_mem_head? hhead)
      rw [Option.map_some, Option.filter_some, if_pos hbelow]

/-- Two full pages and a short one. -/
def longConversation : Store :=
  { Store.default with
    conversations := (Conversation.direct 9 1 4 0).toOption.elim .empty (Map.empty.insert 9)
    messages := Map.empty.insert 9 ((List.range 120).map fun n =>
      .sent n n 9 4 (.text "hi") (n + 1) 0) }

theorem longConversation_timeline : longConversation.timeline 9 =
    (List.range 120).map fun n => .sent n n 9 4 (.text "hi") (n + 1) 0 := by
  simp [longConversation, Store.timeline]

theorem history_complete_long :
    let requests : Nat → Store × DateTime := fun _ => (longConversation, 0)
    history requests 1 9 3 = shownTimeline (longConversation, 0) 1 9 ∧
      (shownTimeline (longConversation, 0) 1 9).length = 120 := by
  intro requests
  have hlength : (shownTimeline (longConversation, 0) 1 9).length = 120 := by
    rw [shownTimeline, longConversation_timeline, List.length_map, List.filter_eq_self.mpr]
    · simp
    · intro m hm
      rfl
  have hsequenced : Sequenced (longConversation.timeline 9) := by
    rw [longConversation_timeline]
    constructor
    · intro m hm
      obtain ⟨n, hn, rfl⟩ := List.mem_map.mp hm
      have := List.mem_range.mp hn
      exact ⟨n + 1, by omega, rfl⟩
    · refine List.pairwise_map.mpr (List.pairwise_lt_range.imp fun h => ?_)
      show _ + 1 < _ + 1
      omega
  have hall := (history_complete requests 1 9 (fun _ => by decide) hsequenced fun _ _ _ => rfl).2.2
  have hpages : (shownTimeline (requests 0) 1 9).length / 50 + 1 = 3 := by
    rw [show requests 0 = (longConversation, 0) from rfl, hlength]
  rw [hpages] at hall
  exact ⟨hall, hlength⟩

end

end IamRust
