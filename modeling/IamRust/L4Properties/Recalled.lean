import IamRust.L4Properties.Links

/-!
# The status of a recalled message

`messages` computes the status of the reader's own messages from the receipts
each time. It does not look at the stored status first, and a recall leaves the
receipts: a recalled message goes on being "delivered" or "read" for its sender.

* `DeliveredFirst`: a message somebody read was delivered to them.
* `recalled_shown_iff`: the statuses are those of `Store.reported` exactly if
  no message of the reader was recalled that somebody else had received.
* `recalled_shown_as_read`: a message that was read and then recalled.
-/
namespace IamRust

open Core

/-- **The status a reader is to be shown.** A recalled message is recalled; another one of the
reader's own is read or delivered if somebody else has done so. -/
def Store.reported (s : Store) (v : UserId) (m : Message) : MessageStatus :=
  let receipts := (s.messageReceipts.get m.id).getD .default
  if m.status = .recalled ∨ m.senderId ≠ v then m.status
  else if ∃ u ∈ receipts.readBy, u ≠ v ∧ readReceiptsEnabled s u then .read
  else if ∃ u ∈ receipts.deliveredTo, u ≠ v then .delivered
  else m.status

/-- The message was delivered to nobody but the user. -/
def Store.DeliveredOnlyTo (s : Store) (v : UserId) (i : MessageId) : Prop :=
  ∀ u ∈ ((s.messageReceipts.get i).getD .default).deliveredTo, u = v

/-- Who has read a message is one of those it was delivered to. -/
def DeliveredFirst (w : World) : Prop :=
  ∀ i r, w.messageReceipts.get i = some r → r.readBy ⊆ r.deliveredTo

/-! ## Receipts over a run -/

section
variable {env : Env} {w w' : World} {op : Op} {v : UserId} {m : Message} {i : MessageId}

instance deliveredFirst_conversations : Ignores (Tx.Preserving DeliveredFirst) .conversations where
  set _ _ := fun h => h

/-- One delivery more. -/
theorem DeliveredFirst.delivered (h : DeliveredFirst w) {u : UserId}
    (hreceipts : w'.messageReceipts = w.messageReceipts.upsert i .default fun receipts =>
      { receipts with deliveredTo := insert u receipts.deliveredTo }) : DeliveredFirst w' := by
  intro j r hget
  rw [hreceipts, Map.get_upsert] at hget
  split at hget
  · cases hget
    refine Finset.Subset.trans ?_ (Finset.subset_insert ..)
    cases hi : w.messageReceipts.get i with
    | none => exact Finset.Subset.refl _
    | some r => exact h i r hi
  · exact h j r hget

theorem DeliveredFirst.step (h : DeliveredFirst w) (hr : (op.run env).Runs w () w') :
    DeliveredFirst w' := by
  cases op
  case sendMessageRequest actor c request now =>
    simp only [Op.run, Tx.runs_void, IamRust.sendMessageRequest, sendMessageInStore,
      Tx.runs_failIf_bind, Tx.runs_get_bind] at hr
    obtain ⟨⟨m, ack⟩, -, hr⟩ := hr
    split at hr
    · simp only [Tx.runs_okOr_bind, Tx.runs_pure] at hr
      obtain ⟨-, -, -, -, -, rfl⟩ := hr
      exact h
    · exact h.delivered (storeNewMessage_receipts hr)
  case forwardMessages actor ids c mode now =>
    obtain ⟨ms, hr⟩ := Tx.runs_void.mp hr
    have hkeeps : Tx.Keeps (Tx.Preserving DeliveredFirst)
        (IamRust.forwardMessages env actor ids c mode now) :=
      forwardMessages_keeps fun hcopy _ _ _ hfirst =>
        hfirst.delivered (appendForwardedMessage_receipts hcopy)
    exact hkeeps.runs hr h
  case acknowledgeDelivery actor messageId now =>
    simp only [Op.run, Tx.runs_void, IamRust.acknowledgeDelivery, Tx.runs_get_bind,
      Tx.runs_okOr_bind, Tx.runs_failIf_bind, recordDelivery, update_bind_runs,
      appendEvent_runs] at hr
    obtain ⟨_, m, hfind, conversation, -, -, rfl⟩ := hr
    exact h.delivered (i := messageId) (u := actor) rfl
  case markRead reader id through now =>
    obtain ⟨_, hr⟩ := Tx.runs_void.mp hr
    intro j r hget
    rcases (markRead_marks hr).receipts j with hsame | ⟨-, hread⟩
    · exact h j r (hsame ▸ hget)
    · rw [hread] at hget
      cases hget
      refine Finset.insert_subset_insert _ ?_
      cases hj : w.messageReceipts.get j with
      | none => exact Finset.Subset.refl _
      | some r => exact h j r hj
  all_goals
    have hsame : w'.messageReceipts = w.messageReceipts :=
      Op.same (f := .messageReceipts) hr (by dsimp only [Op.touches]; decide)
    exact fun i r hget => h i r (hsame ▸ hget)

theorem deliveredFirst_inductive (env : Env) : (service env).Inductive DeliveredFirst where
  init w h := by
    subst h
    exact fun _ _ h => nomatch h
  step _ _ _ h hr := h.step hr

/-! ## One message -/

/-- A message without receipts has empty ones. -/
theorem shownStatus_own (s : Store) (hown : m.senderId = v) : shownStatus s v m =
    let receipts := (s.messageReceipts.get m.id).getD .default
    if ∃ u ∈ receipts.readBy, u ≠ v ∧ readReceiptsEnabled s u then .read
    else if ∃ u ∈ receipts.deliveredTo, u ≠ v then .delivered
    else m.status := by
  unfold shownStatus
  rw [if_neg (not_not.mpr hown)]
  cases s.messageReceipts.get m.id with
  | none => simp [ReceiptState.default]
  | some receipts => rfl

theorem shownStatus_eq_reported (hfirst : DeliveredFirst w) :
    shownStatus w.toStore v m = w.reported v m ↔
      (m.status = .recalled → m.senderId = v → w.DeliveredOnlyTo v m.id) := by
  by_cases hown : m.senderId = v
  · rw [shownStatus_own w.toStore hown]
    unfold Store.reported Store.DeliveredOnlyTo
    by_cases hrecalled : m.status = .recalled
    · -- every receipt of somebody else would show
      have hread : (∃ u ∈ ((w.messageReceipts.get m.id).getD .default).readBy,
          u ≠ v ∧ readReceiptsEnabled w.toStore u) →
          ∃ u ∈ ((w.messageReceipts.get m.id).getD .default).deliveredTo, u ≠ v := by
        rintro ⟨u, hu, hne, -⟩
        refine ⟨u, ?_, hne⟩
        cases hi : w.messageReceipts.get m.id with
        | none =>
          rw [hi] at hu
          exact absurd hu (Finset.notMem_empty u)
        | some r =>
          rw [hi] at hu
          exact hfirst _ r hi hu
      simp only [hrecalled, true_or, if_true, hown, true_implies]
      split
      · rename_i h
        obtain ⟨u, hu, hne⟩ := hread h
        exact iff_of_false nofun fun hall => hne (hall u hu)
      · split
        · rename_i _ h
          obtain ⟨u, hu, hne⟩ := h
          exact iff_of_false nofun fun hall => hne (hall u hu)
        · rename_i _ h
          exact iff_of_true rfl fun u hu => by_contra fun hne => h ⟨u, hu, hne⟩
    · simp [hrecalled, hown]
  · have hother : shownStatus w.toStore v m = m.status := if_pos hown
    rw [hother, Store.reported]
    simp [hown]

end

/-! ## Main result -/

/-- **A page shows the recalled messages as recalled**, and the other ones of the reader by their
receipts, exactly if no message of the reader on it was recalled that had been delivered to
somebody else. -/
theorem recalled_shown_iff (env : Env) (w : World) (hw : (service env).Reachable w) (v : UserId)
    (id : ConversationId) (before : Option Nat) (limit : Nat) (now : DateTime) (page : List Message)
    (hpage : messages w.toStore now v id before limit = .ok page) :
    ∃ stored : List Message, stored.Sublist (w.timeline id) ∧
      page = stored.map (fun m => { m with status := shownStatus w.toStore v m }) ∧
      (page = stored.map (fun m => { m with status := w.reported v m }) ↔
        ∀ m ∈ stored, m.status = .recalled → m.senderId = v → w.DeliveredOnlyTo v m.id) := by
  have hfirst := (deliveredFirst_inductive env).reachable hw
  unfold messages at hpage
  cases hread : readableConversation w.toStore v id with
  | error e =>
    rw [hread] at hpage
    cases hpage
  | ok c =>
    rw [hread] at hpage
    cases hpage
    refine ⟨_, ?_, rfl, ?_⟩
    · refine List.Sublist.trans (List.take_sublist _ _).reverse ?_
      rw [List.reverse_reverse]
      exact List.filter_sublist
    · rw [List.map_inj_left]
      refine forall₂_congr fun m _ => ?_
      rw [← shownStatus_eq_reported hfirst]
      exact ⟨congrArg Message.status, fun h => by rw [h]⟩

/-- Alice, user 1, sends a text to the group of the two and recalls it. -/
theorem recalled_shown_unread : ∃ w, (service Env.numbered).Reachable w ∧
    (w.timeline 11).map (·.status) = [.recalled] ∧
    (messages w.toStore 0 1 11 none 10).map (·.map (·.status)) = .ok [.recalled] := by
  obtain ⟨w, hw, hp⟩ := reaches Env.numbered (aliceAndBob ++
    [.sendMessageRequest 1 11 (.text 100 "hi") 0, .recallMessage 1 14 1])
    (fun w => decide ((w.timeline 11).map (·.status) = [.recalled]) &&
      (w.timeline 11).all (fun m => decide (∀ u ∈
        ((w.messageReceipts.get m.id).getD .default).deliveredTo, u = 1)) &&
      (messages w.toStore 0 1 11 none 10).toOption.any fun page : List Message =>
        decide (page.length = 1))
    (by decide +kernel)
  simp only [Bool.and_eq_true, decide_eq_true_eq, Option.any_eq_true, toOption_eq_some,
    List.all_eq_true] at hp
  obtain ⟨⟨hstatus, hdelivered⟩, page, hpage, hlength⟩ := hp
  have hreach := reachable_of_run hw
  refine ⟨w, hreach, hstatus, map_eq_ok_iff.mpr ⟨page, hpage, ?_⟩⟩
  obtain ⟨stored, hstored, hshown, hiff⟩ :=
    recalled_shown_iff Env.numbered w hreach 1 11 none 10 0 page hpage
  have hreported := hiff.mpr fun m hm _ _ => hdelivered m (hstored.subset hm)
  have hall : ∀ m ∈ stored, w.reported 1 m = .recalled := fun m hm => by
    have hrecalled : m.status = .recalled := List.mem_singleton.mp
      (hstatus ▸ List.mem_map_of_mem (hstored.subset hm))
    rw [Store.reported, if_pos (.inl hrecalled), hrecalled]
  rw [hreported, List.length_map] at hlength
  obtain ⟨m, rfl⟩ := List.length_eq_one_iff.mp hlength
  rw [hreported]
  exact congrArg ([·]) (hall m List.mem_cons_self)

/-- Bob reads it before it is recalled: Alice is shown a recalled message as read, Bob as
recalled. -/
theorem recalled_shown_as_read : ∃ w, (service Env.numbered).Reachable w ∧
    (w.timeline 11).map (·.status) = [.recalled] ∧
    (messages w.toStore 0 1 11 none 10).map (·.map (·.status)) = .ok [.read] ∧
    (messages w.toStore 0 4 11 none 10).map (·.map (·.status)) = .ok [.recalled] := by
  obtain ⟨w, hw, hp⟩ := reaches Env.numbered (aliceAndBob ++
    [.sendMessageRequest 1 11 (.text 100 "hi") 0, .markRead 4 11 1 0, .recallMessage 1 14 1])
    (fun w => decide ((w.timeline 11).map (·.status) = [.recalled]) &&
      (messages w.toStore 0 1 11 none 10).toOption.map (·.map (·.status)) == some [.read] &&
      (messages w.toStore 0 4 11 none 10).toOption.map (·.map (·.status)) == some [.recalled])
    (by decide +kernel)
  simp only [Bool.and_eq_true, decide_eq_true_eq, beq_iff_eq, Option.map_eq_some_iff,
    toOption_eq_some, ← map_eq_ok_iff] at hp
  exact ⟨w, reachable_of_run hw, hp.1.1, hp.1.2, hp.2⟩

end IamRust
