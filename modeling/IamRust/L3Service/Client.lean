import IamRust.L0Core.Paging
import IamRust.L3Service.Reads

/-!
# The history as the client loads it

The handler of `GET /conversations/:id/messages`, and what the desktop client
makes of its cursor.
-/
namespace IamRust

open Core

/-- mirrors crates/protocol/src/lib.rs:41-47 -/
structure MessagePage where
  items : List Message
  nextCursor : Option String

/-- mirrors apps/server/src/api.rs:1586-1609 -/
def messagesHandler (s : Store) (now : DateTime) (userId : UserId)
    (conversationId : ConversationId) (before limit : Option Nat) :
    Except ApplicationError MessagePage :=
  (messages s now userId conversationId before (limit.getD 50)).map fun messages =>
    { items := messages
      nextCursor := (messages.head?.bind (·.sequence)).map Nat.repr }

/-- `str::parse::<u64>`: decimal digits, with a `+` in front or without. -/
def parseU64 (s : String) : Option Nat :=
  let digits := match s.toList with
    | '+' :: digits => digits
    | digits => digits
  if digits.isEmpty || !digits.all Char.isDigit then none
  else (some (Nat.ofDigitChars 10 digits 0)).filter fun n => decide (n < 2 ^ 64)

/-- mirrors apps/desktop/src/ui.rs:6805-6816 -/
def pageNextCursor (items : List Message) (rawCursor : Option String) (before : Option Nat) :
    Option Nat :=
  if items.length < 50 then none
  else (rawCursor.bind parseU64).filter fun cursor => before.all fun before =>
    decide (cursor < before)

/-- The page of 50 below the cursor, read from a store at a time; nothing, if it is refused. -/
def historyPage (requests : Nat → Store × DateTime) (userId : UserId)
    (conversationId : ConversationId) (k : Nat) (before : Option Nat) : MessagePage :=
  match messagesHandler (requests k).1 (requests k).2 userId conversationId before (some 50) with
  | .ok page => page
  | .error _ => ⟨[], none⟩

/-- The cursor of the client's `k`-th request, `timeline_next_cursor`; `none` when it has stopped.
mirrors apps/desktop/src/ui.rs:2604-2646, 6769-6770 -/
def historyCursor (requests : Nat → Store × DateTime) (userId : UserId)
    (conversationId : ConversationId) : Nat → Option (Option Nat)
  | 0 => some none
  | k + 1 => (historyCursor requests userId conversationId k).bind fun before =>
    let page := historyPage requests userId conversationId k before
    (pageNextCursor page.items page.nextCursor before).map some

/-- The first `k` pages put together, the oldest one in front. -/
def history (requests : Nat → Store × DateTime) (userId : UserId)
    (conversationId : ConversationId) : Nat → List Message
  | 0 => []
  | k + 1 => (((historyCursor requests userId conversationId k).map fun before =>
      (historyPage requests userId conversationId k before).items).getD []) ++
    history requests userId conversationId k

/-- A cursor is read as it was written. -/
theorem parseU64_repr {n : Nat} (h : n < 2 ^ 64) : parseU64 (Nat.repr n) = some n := by
  have hdigits : ∀ c ∈ Nat.toDigits 10 n, c.isDigit = true := fun c hc =>
    Nat.isDigit_of_mem_toDigits (by omega) (by omega) hc
  have hhead : (match Nat.toDigits 10 n with
      | '+' :: digits => digits
      | digits => digits) = Nat.toDigits 10 n := by
    split
    · rename_i digits heq
      have hplus := hdigits '+' (heq ▸ List.mem_cons_self)
      cases hplus
    · rfl
  unfold parseU64
  rw [Nat.toList_repr, hhead]
  dsimp only
  have hempty : (Nat.toDigits 10 n).isEmpty = false := by simp [Nat.toDigits_ne_nil]
  have hall : (Nat.toDigits 10 n).all Char.isDigit = true := List.all_eq_true.mpr hdigits
  rw [hempty, hall, Nat.ofDigitChars_ten_toDigits, Option.filter_some, decide_eq_true h]
  rfl

end IamRust
