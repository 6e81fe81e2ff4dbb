import IamRust.L0Core.Map
import IamRust.L1Domain.Basic
import Mathlib.Data.List.Induction

/-!
# Unread counters

mirrors crates/domain/src/sync.rs:56-83. A counter stops at `u32::MAX`; the total
is a plain sum of `u32`, which panics or wraps beyond that, as the build has it.

* `conversation_eq`: a counter is the number of messages of others since the
  conversation was read, up to `u32::MAX`.
* `counters_exact_iff`: the total is the sum of the counters while that fits.
-/
namespace IamRust

open Core

/-- `u32::MAX`. -/
def u32Max : Nat := 2 ^ 32 - 1

/-- `n.saturating_add(1)` on `u32`. -/
def saturatingSuccU32 (n : UInt32) : UInt32 := if n.toNat = u32Max then n else n + 1

/-- `iter().sum()` on `u32`, and whether an addition overflowed. -/
def sumU32 (l : List UInt32) : UInt32 × Bool :=
  l.foldl (fun x n => (x.1 + n, x.2 || decide (u32Max < x.1.toNat + n.toNat))) (0, false)

structure UnreadCounters where
  perConversation : Map ConversationId UInt32

namespace UnreadCounters

/-- mirrors crates/domain/src/sync.rs:62-67 -/
def increment (d : UnreadCounters) (conversationId : ConversationId) (sender me : UserId) :
    UnreadCounters :=
  if sender ≠ me then ⟨d.perConversation.upsert conversationId 0 saturatingSuccU32⟩ else d

/-- mirrors crates/domain/src/sync.rs:69-71 -/
def markRead (d : UnreadCounters) (conversationId : ConversationId) : UnreadCounters :=
  ⟨d.perConversation.remove conversationId⟩

/-- mirrors crates/domain/src/sync.rs:73-78 -/
def conversation (d : UnreadCounters) (conversationId : ConversationId) : UInt32 :=
  (d.perConversation.get conversationId).getD 0

/-- `none` is a panic, in a build that checks for overflow.
mirrors crates/domain/src/sync.rs:80-82 -/
def total (overflowChecks : Bool) (d : UnreadCounters) : Option UInt32 :=
  let sum := sumU32 d.perConversation.values
  if overflowChecks && sum.2 then none else some sum.1

end UnreadCounters

inductive CounterCall where
  | increment (conversationId : ConversationId) (sender me : UserId)
  | markRead (conversationId : ConversationId)
  deriving DecidableEq, Repr

def CounterCall.run (d : UnreadCounters) : CounterCall → UnreadCounters
  | .increment conversationId sender me => d.increment conversationId sender me
  | .markRead conversationId => d.markRead conversationId

def UnreadCounters.run (d : UnreadCounters) (calls : List CounterCall) : UnreadCounters :=
  calls.foldl CounterCall.run d

/-! ## The counter of a conversation -/

/-- A message of another user in the conversation. -/
def CounterCall.counts (conversationId : ConversationId) : CounterCall → Bool
  | .increment c sender me => decide (c = conversationId ∧ sender ≠ me)
  | .markRead _ => false

/-- The calls since the conversation was read, the last one first. -/
def sinceRead (conversationId : ConversationId) (calls : List CounterCall) : List CounterCall :=
  calls.reverse.takeWhile (· ≠ .markRead conversationId)

/-- The messages of others since the conversation was read, or else beside those at the start. -/
def unreadSince (d : UnreadCounters) (conversationId : ConversationId)
    (calls : List CounterCall) : Nat :=
  (if .markRead conversationId ∈ calls then 0 else (d.conversation conversationId).toNat) +
    (sinceRead conversationId calls).countP (·.counts conversationId)

theorem toNat_saturatingSuccU32 (n : UInt32) :
    (saturatingSuccU32 n).toNat = min (n.toNat + 1) u32Max := by
  have hn := n.toNat_lt
  unfold saturatingSuccU32 u32Max
  split
  · omega
  · rw [UInt32.toNat_add, UInt32.toNat_one]
    omega

theorem unreadSince_concat (d : UnreadCounters) (conversationId : ConversationId)
    (calls : List CounterCall) (call : CounterCall) :
    unreadSince d conversationId (calls ++ [call]) =
      if call = .markRead conversationId then 0
      else unreadSince d conversationId calls + if call.counts conversationId then 1 else 0 := by
  have hsince : sinceRead conversationId (calls ++ [call]) =
      if call = .markRead conversationId then [] else call :: sinceRead conversationId calls := by
    rw [sinceRead, List.reverse_append, List.reverse_singleton, List.singleton_append,
      List.takeWhile_cons]
    by_cases h : call = .markRead conversationId <;> simp [h, sinceRead]
  rw [unreadSince, unreadSince, hsince]
  by_cases h : call = .markRead conversationId
  · simp [h]
  · simp only [List.mem_append, List.mem_singleton, Ne.symm h, or_false, if_neg h,
      List.countP_cons]
    omega

/-- What one call does to the counter of a conversation. -/
theorem conversation_run (d : UnreadCounters) (call : CounterCall)
    (conversationId : ConversationId) :
    ((call.run d).conversation conversationId).toNat =
      if call = .markRead conversationId then 0
      else if call.counts conversationId then min ((d.conversation conversationId).toNat + 1) u32Max
      else (d.conversation conversationId).toNat := by
  cases call with
  | increment c sender me =>
    simp only [CounterCall.run, UnreadCounters.increment, CounterCall.counts, reduceCtorEq,
      if_false]
    by_cases hs : sender = me
    · simp [hs]
    · by_cases hc : c = conversationId
      · simp [hs, hc, UnreadCounters.conversation, Map.get_upsert, toNat_saturatingSuccU32]
      · simp [hs, hc, UnreadCounters.conversation, Map.get_upsert, Ne.symm hc]
  | markRead c =>
    by_cases hc : c = conversationId
    · simp [CounterCall.run, UnreadCounters.markRead, UnreadCounters.conversation, hc,
        Map.get_remove_self]
    · simp [CounterCall.run, UnreadCounters.markRead, UnreadCounters.conversation, hc,
        CounterCall.counts, Map.get_remove_ne (Ne.symm hc)]

theorem conversation_eq (d : UnreadCounters) (calls : List CounterCall)
    (conversationId : ConversationId) :
    ((d.run calls).conversation conversationId).toNat =
      min (unreadSince d conversationId calls) u32Max := by
  induction calls using List.reverseRecOn with
  | nil =>
    have hd := (d.conversation conversationId).toNat_lt
    simp only [UnreadCounters.run, List.foldl_nil, unreadSince, sinceRead, List.not_mem_nil,
      List.reverse_nil, List.takeWhile_nil, List.countP_nil, if_false, u32Max]
    omega
  | append_singleton calls call ih =>
    rw [UnreadCounters.run, List.foldl_append, List.foldl_cons, List.foldl_nil,
      ← UnreadCounters.run, conversation_run, unreadSince_concat, ih]
    split
    · exact (Nat.zero_min u32Max).symm
    · split <;> omega

/-! ## The total -/

theorem sumU32_concat (l : List UInt32) (n : UInt32) : sumU32 (l ++ [n]) =
    ((sumU32 l).1 + n, (sumU32 l).2 || decide (u32Max < (sumU32 l).1.toNat + n.toNat)) :=
  List.foldl_concat ..

/-- An addition overflows as soon as the sum so far does not fit. -/
theorem sumU32_eq (l : List UInt32) :
    (sumU32 l).1.toNat = (l.map UInt32.toNat).sum % 2 ^ 32 ∧
      ((sumU32 l).2 = true ↔ u32Max < (l.map UInt32.toNat).sum) := by
  induction l using List.reverseRecOn with
  | nil => decide
  | append_singleton l n ih =>
    obtain ⟨hsum, hover⟩ := ih
    rw [sumU32_concat, List.map_append, List.sum_append, List.map_singleton, List.sum_singleton]
    refine ⟨?_, ?_⟩
    · rw [UInt32.toNat_add, hsum, Nat.mod_add_mod]
    · have hn := n.toNat_lt
      rw [Bool.or_eq_true, hover, decide_eq_true_iff, hsum]
      unfold u32Max
      omega

/-- The counters added up. -/
def UnreadCounters.sum (d : UnreadCounters) : Nat := (d.perConversation.values.map UInt32.toNat).sum

/-- What the counters are to say after calls: each the messages of others, and the total their
sum, up to `u32::MAX`, in whatever build, without an addition that overflows. -/
structure UnreadCounters.Exact (d : UnreadCounters) (calls : List CounterCall) : Prop where
  conversation : ∀ c, ((d.run calls).conversation c).toNat = min (unreadSince d c calls) u32Max
  total : ∀ overflowChecks, ((d.run calls).total overflowChecks).map UInt32.toNat =
    some (min (d.run calls).sum u32Max)
  no_overflow : (sumU32 (d.run calls).perConversation.values).2 = false

theorem counters_exact_iff (d : UnreadCounters) (calls : List CounterCall) :
    d.Exact calls ↔ (d.run calls).sum ≤ u32Max := by
  obtain ⟨hsum, hover⟩ := sumU32_eq (d.run calls).perConversation.values
  rw [← UnreadCounters.sum] at hsum hover
  constructor
  · intro h
    refine Nat.le_of_not_lt fun hlt => ?_
    rw [← hover, h.no_overflow] at hlt
    cases hlt
  · intro h
    have hfits : (sumU32 (d.run calls).perConversation.values).2 = false :=
      Bool.eq_false_iff.mpr fun hlt => Nat.not_lt.mpr h (hover.mp hlt)
    have hlt : (d.run calls).sum < 2 ^ 32 := Nat.lt_succ_of_le h
    refine ⟨conversation_eq d calls, fun overflowChecks => ?_, hfits⟩
    rw [UnreadCounters.total, hfits, Bool.and_false, if_neg Bool.false_ne_true, Option.map_some,
      hsum, Nat.min_eq_left h, Nat.mod_eq_of_lt hlt]

/-- As deserialised: one conversation at `u32::MAX`, another at 1. -/
def fullCounters : UnreadCounters := ⟨(Map.empty.insert 1 4294967295).insert 2 1⟩

/-- A build that checks for overflow panics, another one says 0. -/
theorem total_overflows :
    ¬ ∀ (d : UnreadCounters) (calls : List CounterCall), d.Exact calls := by
  intro h
  have hpanics : fullCounters.total true = none ∧ fullCounters.total false = some 0 := by
    decide +kernel
  have htotal := (h fullCounters []).total true
  rw [show fullCounters.run [] = fullCounters from rfl, hpanics.1] at htotal
  cases htotal

end IamRust
