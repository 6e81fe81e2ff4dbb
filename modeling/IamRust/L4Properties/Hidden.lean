import IamRust.L4Properties.Positions

/-!
# Hidden conversations

The client promises that a hidden conversation comes back with a new message.
Nothing in the service clears `hidden` when a message is stored.

* `hidden_listed_iff`: after a step that stores a message in a conversation the
  user has hidden, the conversation is on the list exactly if the step makes
  the user a new member: their old join request is accepted.
* `hidden_not_listed`: a message in a hidden group.
-/
namespace IamRust

open Core

/-- The user has hidden the conversation. -/
def Store.hides (s : Store) (u : UserId) (id : ConversationId) : Bool := (s.settings u id).hidden

/-- `conversations` lists the conversation for the user. -/
def Store.Lists (s : Store) (u : UserId) (id : ConversationId) : Prop :=
  ∃ c ∈ IamRust.conversations s u, c.id = id

section
variable {env : Env} {w w' : World} {op : Op} {u : UserId} {id : ConversationId}

theorem mem_conversations {s : Store} {c' : Conversation} :
    c' ∈ IamRust.conversations s u ↔ ∃ i c, s.conversations.get i = some c ∧ c.canRead u = true ∧
      (match s.conversationSettings.get (u, c.id) with
        | none => some (conversationForUser c u)
        | some settings =>
          if settings.hidden then none
          else some (conversationForUser
            { c with pinned := settings.pinned, muted := settings.muted } u)) = some c' := by
  unfold IamRust.conversations
  rw [mem_sortByKeyRev]
  simp only [List.mem_filterMap, List.mem_filter, Map.mem_values]
  constructor
  · rintro ⟨c, ⟨⟨i, hget⟩, hread⟩, h⟩
    exact ⟨i, c, hget, hread, h⟩
  · rintro ⟨i, c, hget, hread, h⟩
    exact ⟨c, ⟨⟨i, hget⟩, hread⟩, h⟩

/-- Listed are the conversations of the user that are not hidden. -/
theorem lists_iff (hnamed : Named w) :
    w.Lists u id ↔ w.readable u id = true ∧ w.hides u id = false := by
  unfold Store.Lists Store.hides Store.settings
  simp only [mem_conversations, Store.readable_iff]
  constructor
  · rintro ⟨c', ⟨i, c, hget, hread, h⟩, rfl⟩
    have hid : c.id = i := hnamed i c hget
    cases hs : w.conversationSettings.get (u, c.id) with
    | none =>
      rw [hs] at h
      cases h
      rw [conversationForUser_id, hs]
      exact ⟨⟨c, hid ▸ hget, hread⟩, rfl⟩
    | some settings =>
      rw [hs] at h
      dsimp only at h
      split at h
      · cases h
      · cases h
        rw [conversationForUser_id, hs]
        exact ⟨⟨c, hid ▸ hget, hread⟩, by simpa using ‹¬ settings.hidden = true›⟩
  · rintro ⟨⟨c, hget, hread⟩, hhidden⟩
    have hid : c.id = id := hnamed id c hget
    cases hs : w.conversationSettings.get (u, id) with
    | none =>
      refine ⟨conversationForUser c u, ⟨id, c, hget, hread, ?_⟩, ?_⟩
      · rw [hid, hs]
      · rw [conversationForUser_id, hid]
    | some settings =>
      rw [hs] at hhidden
      refine ⟨conversationForUser
        { c with pinned := settings.pinned, muted := settings.muted } u,
        ⟨id, c, hget, hread, ?_⟩, ?_⟩
      · rw [hid, hs]
        exact if_neg (by simpa using hhidden)
      · rw [conversationForUser_id]
        exact hid

/-- **Step.** A hidden conversation stays hidden unless the user leaves it, enters it anew or
changes its settings. -/
theorem Op.hides (hr : (op.run env).Runs w () w') (hnamed : Named w)
    (hhidden : w.hides u id = true) : w'.hides u id = true ∨ op.Removes u id ∨ op.Resets w u id ∨
      ∃ request now, op = .updateConversationSettings u id request now := by
  have hsettings := Op.settings hr hnamed u id
  unfold Store.hides at *
  generalize w'.settings u id = settings at *
  cases hsettings with
  | kept => exact .inl hhidden
  | reset hop => exact .inr (hop.imp_right .inl)
  | changed hop => exact .inr (.inr (.inr ⟨_, _, hop⟩))
  | read => exact .inl hhidden
  | caughtUp => exact .inl hhidden

end

/-! ## Main result -/

/-- **A hidden conversation stays off the list when a message is stored in it**, whoever sends it
and by whatever path, but for the notice that accepts a join request of the user. -/
theorem hidden_listed_iff (env : Env) (hu : Function.Injective env.uuid) (w : World)
    (hw : (service env).Reachable w) (u : UserId) (id : ConversationId)
    (hhidden : w.hides u id = true) (op : Op) (w' : World) (hr : (op.run env).Runs w () w')
    (i : Nat) (m : Message) (hold : w.messageAt id i = none) (hnew : w'.messageAt id i = some m) : w'.Lists u id ↔ op.Resets w u id := by
  have hnamed := (named_inductive env).reachable hw
  have hfresh := ((placed_inductive hu).reachable hw).fresh hu
  rw [lists_iff ((named_inductive env).step w op w' hnamed hr)]
  constructor
  · rintro ⟨hafter, hshown⟩
    rcases Op.hides hr hnamed hhidden with hstill | hremoves | hresets | ⟨request, now, rfl⟩
    · rw [hstill] at hshown
      cases hshown
    · exact absurd hremoves (Op.stays hr hfresh hafter)
    · exact hresets
    · -- a change of settings stores no message
      have hsame : w'.messages = w.messages :=
        Op.same (f := .messages) hr (by dsimp only [Op.touches]; decide)
      rw [Store.messageAt_eq hsame, hold] at hnew
      cases hnew
  · intro hresets
    refine ⟨(Op.readable hr hfresh).mpr (.inr hresets.admits), ?_⟩
    rw [Store.hides, Op.reset_settings hr hresets]
    rfl

/-- Bob, user 4, hides the group of the two, then Alice forwards a message of hers to it. -/
theorem hidden_listed_forwarded : ∃ w w', (service Env.numbered).Reachable w ∧
    ((Op.forwardMessages 1 [14] 11 .individually 0).run Env.numbered).Runs w () w' ∧
    w.hides 4 11 = true ∧ ¬ w'.Lists 4 11 := by
  obtain ⟨w, _, w', hw, hr, hp⟩ := reaches_runs Env.numbered (aliceAndBob ++
    [.sendMessageRequest 1 11 (.text 100 "hi") 0,
      .updateConversationSettings 4 11 ⟨none, none, some true, none, none, none⟩ 0])
    ((Op.forwardMessages 1 [14] 11 .individually 0).run Env.numbered)
    (fun w _ w' => w.hides 4 11 && (w.messageAt 11 1).isNone && (w'.messageAt 11 1).isSome)
    (by decide +kernel)
  simp only [Bool.and_eq_true, Option.isNone_iff_eq_none, Option.isSome_iff_exists] at hp
  obtain ⟨⟨hhidden, hold⟩, m, hnew⟩ := hp
  have hreach := reachable_of_run hw
  exact ⟨w, w', hreach, hr, hhidden, fun h => (hidden_listed_iff Env.numbered
    Env.numbered_injective w hreach 4 11 hhidden _ w' hr 1 m hold hnew).mp h⟩

/-- Bob hides the group, then Alice writes to it: Bob has one unread message in a conversation that
is not on his list. -/
theorem hidden_not_listed : ∃ w w', (service Env.numbered).Reachable w ∧
    ((Op.sendMessageRequest 1 11 (.text 100 "hi") 0).run Env.numbered).Runs w () w' ∧
    w.readable 4 11 = true ∧ w.hides 4 11 = true ∧
    (w.timeline 11).map (·.senderId) = [] ∧ (w'.timeline 11).map (·.senderId) = [1] ∧
    (IamRust.conversations w.toStore 4).map (·.id) = [9] ∧
    (IamRust.conversations w'.toStore 4).map (·.id) = [9] := by
  obtain ⟨w, _, w', hw, hr, hp⟩ := reaches_runs Env.numbered (aliceAndBob ++
    [.updateConversationSettings 4 11 ⟨none, none, some true, none, none, none⟩ 0])
    ((Op.sendMessageRequest 1 11 (.text 100 "hi") 0).run Env.numbered)
    (fun w _ w' => w.readable 4 11 && w.hides 4 11 &&
      decide ((w.timeline 11).map (·.senderId) = []) &&
      decide ((w'.timeline 11).map (·.senderId) = [1]) &&
      decide ((IamRust.conversations w.toStore 4).map (·.id) = [9]) &&
      decide ((IamRust.conversations w'.toStore 4).map (·.id) = [9])) (by decide +kernel)
  simp only [Bool.and_eq_true, decide_eq_true_eq] at hp
  obtain ⟨⟨⟨⟨⟨hmember, hhidden⟩, hempty⟩, htimeline⟩, hbefore⟩, hafter⟩ := hp
  exact ⟨w, w', reachable_of_run hw, hr, hmember, hhidden, hempty, htimeline, hbefore,
    hafter⟩

end IamRust
