import IamRust.L0Core.Rooms
import IamRust.L4Properties.Authority

/-!
# Members as people in rooms

The conversations and their timelines are rooms: the members are in them, the
owner and the administrators preside, and a message is an entry of its sender.

`Seating` is what one user may do to the members of a conversation, and what a
turn in the rooms can do. `Reshaped.turn`: every change of the conversations that
a transaction makes is one of the user it runs for.
-/
namespace IamRust

open Core

/-! ## Rooms -/

abbrev ChatRooms : Type := Rooms ConversationId UserId MessageContent

def Message.entry (m : Message) : Entry UserId MessageContent :=
  ⟨m.senderId, if m.status = .recalled then none else some m.content⟩

/-- The record is one of an owner or an administrator. -/
def Presides (o : Option ConversationMember) : Prop := ∃ m, o = some m ∧ .administrator ≤ m.role

/-- The rooms that records of members stand for. -/
def seats (members : ConversationId → UserId → Option ConversationMember)
    (log : ConversationId → List (Entry UserId MessageContent)) : ChatRooms where
  present id := {u | (members id u).isSome}
  presiding id := {u | Presides (members id u)}
  log := log

def Store.log (s : Store) (id : ConversationId) : List (Entry UserId MessageContent) :=
  (s.timeline id).map Message.entry

def World.rooms (w : World) : ChatRooms := seats (memberIn w.conversations) w.log

theorem readable_iff_present {w : World} {u : UserId} {id : ConversationId} :
    w.readable u id = true ↔ u ∈ w.rooms.present id := by
  show _ ↔ (memberIn w.conversations id u).isSome
  unfold Store.readable readableIn memberIn
  cases w.conversations.get id with
  | none => simp
  | some c => simp [Conversation.canRead, Map.containsKey]

/-! ## Members -/

/-- What one user may do to the records of a conversation: let plain members in, leave, and,
presiding, send others out and change who presides. -/
structure Seating (a : UserId) (g g' : UserId → Option ConversationMember) : Prop where
  enters : ∀ {u m}, g u = none → g' u = some m → m.role = .member ∧ (g a).isSome ∧ (g' a).isSome
  leaves : ∀ {u m}, g u = some m → g' u = none →
    u = a ∨ Presides (g a) ∧ (Presides (g' a) ∨ g' a = none)
  ranks : ∀ {u m m'}, g u = some m → g' u = some m' →
    (.administrator ≤ m.role ↔ .administrator ≤ m'.role) ∨ Presides (g a)

section
variable {a : UserId} {f f' : ConversationId → UserId → Option ConversationMember}
  {log : ConversationId → List (Entry UserId MessageContent)}

@[simp] theorem presides_none : ¬ Presides none := by
  rintro ⟨m, hm, -⟩
  cases hm

@[simp] theorem presides_some {m : ConversationMember} :
    Presides (some m) ↔ .administrator ≤ m.role := by
  simp [Presides]

theorem Presides.isSome {o : Option ConversationMember} (h : Presides o) : o.isSome := by
  obtain ⟨m, rfl, -⟩ := h
  rfl

theorem not_presides_of_member {o : Option ConversationMember} {m : ConversationMember}
    (ho : o = some m) (hm : m.role = .member) : ¬ Presides o := by
  rintro ⟨m', hm', hrole⟩
  cases ho.symm.trans hm'
  rw [hm] at hrole
  exact absurd hrole (by decide)

/-- First it is said who presides, then people are sent out, then others are let in. -/
theorem seating_turn (h : ∀ id, Seating a (f id) (f' id)) :
    Rooms.Turn a (seats f log) (seats f' log) := by
  -- those who go
  let gone : ConversationId → Set UserId := fun id => {u | (f id u).isSome ∧ f' id u = none}
  let come : ConversationId → Set UserId := fun id => {u | f id u = none ∧ (f' id u).isSome}
  let chosen : ConversationId → Set UserId := fun id =>
    {u | Presides (f' id u) ∨ Presides (f id u) ∧ f' id u = none}
  have hchosen : ∀ id u, u ∈ chosen id → (f id u).isSome := by
    rintro id u (hu | ⟨hu, -⟩)
    · cases hf : f id u with
      | none =>
        obtain ⟨m, hm, hrole⟩ := hu
        exact absurd ⟨m, hm, hrole⟩ (not_presides_of_member hm ((h id).enters hf hm).1)
      | some m => rfl
    · exact hu.isSome
  have hsame : ∀ id, ¬ Presides (f id a) → chosen id = {u | Presides (f id u)} := by
    intro id ha
    ext u
    show (Presides (f' id u) ∨ Presides (f id u) ∧ f' id u = none) ↔ Presides (f id u)
    cases hf : f id u with
    | none =>
      have : ¬ Presides (f' id u) := by
        rintro ⟨m, hm, hrole⟩
        exact not_presides_of_member hm ((h id).enters hf hm).1 ⟨m, hm, hrole⟩
      simp [this]
    | some m =>
      cases hf' : f' id u with
      | none => simp
      | some m' => simp [((h id).ranks hf hf').resolve_right ha]
  let s₁ : ChatRooms := ⟨fun id => {u | (f id u).isSome}, chosen, log⟩
  let s₂ : ChatRooms :=
    ⟨fun id => {u | (f id u).isSome} \ gone id, fun id => chosen id \ gone id, log⟩
  have h₁ : Rooms.Step (seats f log) (.appoints a chosen) s₁ := by
    refine .appoints (fun id => ?_) fun id u hu => hchosen id u hu
    by_cases ha : Presides (f id a)
    · exact .inr ha
    · exact .inl (hsame id ha)
  have h₂ : Rooms.Step s₁ (.dismisses a gone) s₂ := by
    refine .dismisses fun id => ?_
    by_cases hothers : ∃ u, u ∈ gone id ∧ u ≠ a
    · obtain ⟨u, ⟨hu, hu'⟩, hne⟩ := hothers
      obtain ⟨m, hm⟩ := Option.isSome_iff_exists.mp hu
      obtain ⟨ha, ha'⟩ := ((h id).leaves hm hu').resolve_left hne
      exact .inr (ha'.imp_right fun hnone => ⟨ha, hnone⟩)
    · refine .inl fun u hu => ?_
      by_contra hne
      exact hothers ⟨u, hu, hne⟩
  have h₃ : Rooms.Step s₂ (.admits a come) (seats f' log) := by
    have hfinal : seats f' log = { s₂ with present := fun id => s₂.present id ∪ come id } := by
      have hpresent : (seats f' log).present = fun id => s₂.present id ∪ come id := by
        funext id
        ext u
        show (f' id u).isSome ↔ ((f id u).isSome ∧ ¬ ((f id u).isSome ∧ f' id u = none)) ∨
          (f id u = none ∧ (f' id u).isSome)
        cases f id u <;> cases f' id u <;> simp
      have hpresiding : (seats f' log).presiding = s₂.presiding := by
        funext id
        ext u
        show Presides (f' id u) ↔ (Presides (f' id u) ∨ Presides (f id u) ∧ f' id u = none) ∧
          ¬ ((f id u).isSome ∧ f' id u = none)
        cases hf' : f' id u with
        | none =>
          refine ⟨fun hp => absurd hp.isSome (by simp), fun hp => ?_⟩
          rcases hp.1 with hu | ⟨hu, -⟩
          · exact hu
          · exact absurd ⟨hu.isSome, rfl⟩ hp.2
        | some m => simp
      show Rooms.mk _ _ _ = Rooms.mk _ _ _
      rw [← hpresent, ← hpresiding]
      rfl
    rw [hfinal]
    refine .admits fun id => ?_
    by_cases hcome : ∃ u, u ∈ come id
    · obtain ⟨u, hu, hu'⟩ := hcome
      obtain ⟨m, hm⟩ := Option.isSome_iff_exists.mp hu'
      obtain ⟨-, ha, ha'⟩ := (h id).enters hu hm
      refine .inr ⟨ha, fun hgone => ?_⟩
      rw [hgone.2] at ha'
      cases ha'
    · exact .inl (Set.eq_empty_iff_forall_notMem.mpr fun u hu => hcome ⟨u, hu⟩)
  have t₁ : Rooms.Turn a _ _ := Rooms.Step.turn h₁
  have t₂ : Rooms.Turn a _ _ := Rooms.Step.turn h₂
  have t₃ : Rooms.Turn a _ _ := Rooms.Step.turn h₃
  exact t₁.trans (t₂.trans t₃)

theorem Seating.refl (a : UserId) (g : UserId → Option ConversationMember) : Seating a g g := by
  refine ⟨fun hg hg' => ?_, fun hg hg' => ?_, fun hg hg' => ?_⟩
  · cases hg.symm.trans hg'
  · cases hg.symm.trans hg'
  · cases hg.symm.trans hg'
    exact .inl Iff.rfl

/-- One conversation is written. -/
theorem insert_turn {s : Map ConversationId Conversation} {id : ConversationId}
    {c c' : Conversation}
    (hget : s.get id = some c) (h : Seating a c.members.get c'.members.get) :
    Rooms.Turn a (seats (memberIn s) log) (seats (memberIn (s.insert id c')) log) := by
  refine seating_turn fun id' => ?_
  by_cases hid : id' = id
  · subst hid
    have hold : memberIn s id' = c.members.get := by
      funext u
      simp [memberIn, hget]
    have hnew : memberIn (s.insert id' c') id' = c'.members.get := by
      funext u
      simp [memberIn_insert]
    rw [hold, hnew]
    exact h
  · have hsame : memberIn (s.insert id c') id' = memberIn s id' := by
      funext u
      simp [memberIn_insert, hid]
    rw [hsame]
    exact .refl a _

/-- A conversation is opened by one of its members, where there was none. -/
theorem opened_turn {s : Map ConversationId Conversation} {id : ConversationId} {c : Conversation}
    (hget : s.get id = none) (hlog : log id = []) (ha : c.canRead a = true) :
    Rooms.Turn a (seats (memberIn s) log) (seats (memberIn (s.insert id c)) log) := by
  have hnone : ∀ u, memberIn s id u = none := by
    intro u
    simp [memberIn, hget]
  have hstep : Rooms.Step (seats (memberIn s) log)
      (.founds a id {u | (c.members.get u).isSome} {u | Presides (c.members.get u)})
      (seats (memberIn (s.insert id c)) log) := by
    have hpresent : (seats (memberIn (s.insert id c)) log).present =
        Function.update (seats (memberIn s) log).present id {u | (c.members.get u).isSome} := by
      funext id'
      by_cases hid : id' = id
      · subst hid
        simp [seats, memberIn_insert]
      · simp [seats, memberIn_insert, hid]
    have hpresiding : (seats (memberIn (s.insert id c)) log).presiding =
        Function.update (seats (memberIn s) log).presiding id {u | Presides (c.members.get u)} := by
      funext id'
      by_cases hid : id' = id
      · subst hid
        simp [seats, memberIn_insert]
      · simp [seats, memberIn_insert, hid]
    have hfinal : seats (memberIn (s.insert id c)) log = { seats (memberIn s) log with
        present := Function.update (seats (memberIn s) log).present id
          {u | (c.members.get u).isSome}
        presiding := Function.update (seats (memberIn s) log).presiding id
          {u | Presides (c.members.get u)} } := by
      rw [← hpresent, ← hpresiding]
      rfl
    rw [hfinal]
    refine .founds ?_ hlog ?_ fun u hu => hu.isSome
    · refine Set.eq_empty_iff_forall_notMem.mpr fun u hu => ?_
      have hu : (memberIn s id u).isSome := hu
      rw [hnone] at hu
      cases hu
    · exact Option.isSome_iff_exists.mpr (Map.containsKey_iff.mp ha)
  exact Rooms.Step.turn hstep

end

/-! ## One change -/

section
variable {env : Env} {w w' : World} {n : Nat} {op : Op} {m : Map ConversationId Conversation}
  {log : ConversationId → List (Entry UserId MessageContent)} {c c' : Conversation}
  {actor target : UserId} {now : DateTime}

theorem Conversation.Owns.presides (h : c.Owns actor) : Presides (c.members.get actor) := by
  obtain ⟨r, hr, hrole⟩ := h
  exact ⟨r, hr, by rw [hrole]; decide⟩

theorem administrator_le {role : MemberRole} : .administrator ≤ role ↔ role ≠ .member := by
  cases role <;> decide

/-- Who outranks somebody presides. -/
theorem Conversation.Outranks.presides (h : c.Outranks actor target) :
    Presides (c.members.get actor) := by
  obtain ⟨r, s, hr, -, hlt⟩ := h
  refine ⟨r, hr, administrator_le.mpr fun hmember => ?_⟩
  rw [hmember] at hlt
  exact absurd hlt (Nat.not_lt_zero _)

theorem seating_invited {ids : List UserId} (hactor : c.canRead actor = true) :
    Seating actor c.members.get (c.addMembers (c.newMembers ids) now).members.get := by
  have hget := fun u => Conversation.get_addMembers c (c.newMembers ids) now u
  obtain ⟨r, hr⟩ := Map.containsKey_iff.mp hactor
  have hsome : (c.addMembers (c.newMembers ids) now).canRead actor = true :=
    canRead_addMembers.mpr (.inl hactor)
  obtain ⟨r', hr'⟩ := Map.containsKey_iff.mp hsome
  refine ⟨fun {u m} hu hu' => ?_, fun {u m} hu hu' => ?_, fun {u m m'} hu hu' => ?_⟩
  · rw [hget] at hu'
    split at hu'
    · cases hu'
      exact ⟨rfl, by simp [hr], by simp [hr']⟩
    · cases hu.symm.trans hu'
  · rw [hget] at hu'
    split at hu'
    · cases hu'
    · cases hu.symm.trans hu'
  · rw [hget] at hu'
    split at hu'
    · rename_i hmem
      have := (Conversation.mem_newMembers.mp hmem).2
      rw [Conversation.canRead, Map.containsKey_iff.mpr ⟨m, hu⟩] at this
      cases this
    · cases hu.symm.trans hu'
      exact .inl Iff.rfl

/-- One member leaves, or is sent out by somebody who presides. -/
theorem seating_removed {a : UserId} (ha : target = a ∨
      Presides (c.members.get a) ∧ Presides ((c.members.remove target).get a)) :
    Seating a c.members.get (c.members.remove target).get := by
  refine ⟨fun {u m} hu hu' => ?_, fun {u m} hu hu' => ?_, fun {u m m'} hu hu' => ?_⟩
  · rw [Map.get_remove] at hu'
    split at hu'
    · cases hu'
    · cases hu.symm.trans hu'
  · rw [Map.get_remove] at hu'
    split at hu'
    · rename_i htarget
      rw [htarget]
      exact ha.imp_right fun h => ⟨h.1, .inl h.2⟩
    · cases hu.symm.trans hu'
  · rw [Map.get_remove] at hu'
    split at hu'
    · cases hu'
    · cases hu.symm.trans hu'
      exact .inl Iff.rfl

/-- The record of one member is written by somebody who presides, or it is no other role. -/
theorem seating_written {a : UserId} {t t' : ConversationMember}
    (ht : c.members.get target = some t)
    (ha : (.administrator ≤ t.role ↔ .administrator ≤ t'.role) ∨ Presides (c.members.get a)) :
    Seating a c.members.get (c.members.insert target t').get := by
  refine ⟨fun {u m} hu hu' => ?_, fun {u m} hu hu' => ?_, fun {u m m'} hu hu' => ?_⟩
  all_goals
    rw [Map.get_insert] at hu'
    split at hu'
  · subst_vars
    cases hu.symm.trans ht
  · cases hu.symm.trans hu'
  · cases hu'
  · cases hu.symm.trans hu'
  · cases hu'
    subst_vars
    cases hu.symm.trans ht
    exact ha
  · cases hu.symm.trans hu'
    exact .inl Iff.rfl

/-- A plain record is written for somebody by who presides. -/
theorem seating_admitted {t' : ConversationMember} (ht' : t'.role = .member)
    (ha : Presides (c.members.get actor)) :
    Seating actor c.members.get (c.members.insert target t').get := by
  cases ht : c.members.get target with
  | some t => exact seating_written ht (.inr ha)
  | none =>
    have hne : actor ≠ target := by
      rintro rfl
      rw [ht] at ha
      exact presides_none ha
    have hactor : (c.members.insert target t').get actor = c.members.get actor :=
      Map.get_insert_ne hne
    refine ⟨fun {u m} hu hu' => ?_, fun {u m} hu hu' => ?_, fun {u m m'} hu hu' => ?_⟩
    · rw [hactor]
      rw [Map.get_insert] at hu'
      split at hu'
      · cases hu'
        exact ⟨ht', ha.isSome, ha.isSome⟩
      · cases hu.symm.trans hu'
    · rw [Map.get_insert] at hu'
      split at hu'
      · cases hu'
      · cases hu.symm.trans hu'
    · rw [Map.get_insert] at hu'
      split at hu'
      · subst_vars
        cases hu.symm.trans ht
      · cases hu.symm.trans hu'
        exact .inl Iff.rfl

/-- The account is deleted: the user leaves, and says who takes over from an owner. -/
theorem seating_detached : Seating actor c.members.get (c.detach actor now).members.get := by
  have hactor : (c.detach actor now).members.get actor = none := by
    cases hget : (c.detach actor now).members.get actor with
    | none => rfl
    | some r =>
      exact absurd rfl (Conversation.detach_canRead.mp (Map.containsKey_iff.mpr ⟨r, hget⟩)).1
  refine ⟨fun {u m} hu hu' => ?_, fun {u m} hu hu' => ?_, fun {u m m'} hu hu' => ?_⟩
  · have hread : (c.detach actor now).canRead u = true := Map.containsKey_iff.mpr ⟨m, hu'⟩
    obtain ⟨m₀, hm₀⟩ := Map.containsKey_iff.mp (Conversation.detach_canRead.mp hread).2
    cases hu.symm.trans hm₀
  · by_cases hne : u = actor
    · exact .inl hne
    · have hread : (c.detach actor now).canRead u = true :=
        Conversation.detach_canRead.mpr ⟨hne, Map.containsKey_iff.mpr ⟨m, hu⟩⟩
      obtain ⟨m', hm'⟩ := Map.containsKey_iff.mp hread
      cases hu'.symm.trans hm'
  · have hne : u ≠ actor := by
      rintro rfl
      cases hactor.symm.trans hu'
    rcases Conversation.get_detach hne with hsame | ⟨-, hown, -, -⟩
    · rw [hsame, hu] at hu'
      cases hu'
      exact .inl Iff.rfl
    · exact .inr hown.presides

/-- A change of settings changes a role only for an owner. -/
theorem seating_amended {request : UpdateGroupMemberRequest} {a t : ConversationMember}
    (hactor : c.members.get actor = some a) (htarget : c.members.get target = some t)
    (hallowed : request.forbidden actor target a.role t.role = false) :
    Seating actor c.members.get (c.members.insert target (t.apply request)).get := by
  refine seating_written htarget ?_
  cases hrole : request.role with
  | none => exact .inl (by simp [ConversationMember.apply, hrole])
  | some role =>
    simp only [UpdateGroupMemberRequest.forbidden, Bool.or_eq_false_iff, hrole, Option.any_some,
      bne_eq_false_iff_eq] at hallowed
    refine .inr ⟨a, hactor, ?_⟩
    rw [hallowed.1.2.1.1]
    decide

/-- The owner hands the group over. -/
theorem seating_transferred (hown : c.Owns actor) {f g : ConversationMember → ConversationMember} :
    Seating actor c.members.get ((c.members.modify actor f).modify target g).get := by
  have hsome : ∀ u, (((c.members.modify actor f).modify target g).get u).isSome =
      (c.members.get u).isSome := by
    intro u
    rw [Map.get_modify, Map.get_modify]
    split <;> split <;> simp
  refine ⟨fun {u m} hu hu' => ?_, fun {u m} hu hu' => ?_, fun {u m m'} hu hu' => ?_⟩
  · have := hsome u
    rw [hu, hu'] at this
    cases this
  · have := hsome u
    rw [hu, hu'] at this
    cases this
  · exact .inr hown.presides

/-- **A change** of the conversations is a turn of the user it is made for. `log`: what was said,
nothing under the id that is drawn next. -/
theorem Reshaped.turn (h : Reshaped env w n op m)
    (hfresh : w.conversations.get (env.uuid w.nextUuid) = none)
    (hlog : log (env.uuid w.nextUuid) = [])
    (hdisband : ∀ actor id now, op = .disbandGroup actor id now →
      ∃ c, w.conversations.get id = some c ∧ c.Owns actor)
    (hdecide : ∀ actor id now r, op = .decideFriendRequest actor id .accept now →
      w.friendRequests.get id = some r → actor = r.recipientId) :
    m = w.conversations ∨ ∃ a, op.actor = some a ∧
      Rooms.Turn a (seats (memberIn w.conversations) log) (seats (memberIn m) log) := by
  cases h with
  | same | declined | reopened | refused => exact .inl rfl
  | @befriended actor id now r c hget hn hnew =>
    obtain ⟨-, hid, -, -, -, hread⟩ := Conversation.direct_ok hnew
    obtain rfl := hdecide actor id now r rfl hget
    rw [hid]
    exact .inr ⟨_, rfl, opened_turn hfresh hlog ((hread _).mpr (.inr rfl))⟩
  | opened hfriends hnone hn hnew =>
    obtain ⟨-, hid, -, -, -, hread⟩ := Conversation.direct_ok hnew
    rw [hid]
    exact .inr ⟨_, rfl, opened_turn hfresh hlog ((hread _).mpr (.inl rfl))⟩
  | founded hn hnew =>
    obtain ⟨hid, -, -, hread⟩ := Conversation.group_ok hnew
    rw [hid]
    exact .inr ⟨_, rfl, opened_turn hfresh hlog ((hread _).mpr (.inl rfl))⟩
  | updated hget =>
    refine .inr ⟨_, rfl, insert_turn hget ?_⟩
    rw [Conversation.updateGroup_members]
    exact .refl _ _
  | invited hget _ hmember => exact .inr ⟨_, rfl, insert_turn hget (seating_invited hmember)⟩
  | left hget => exact .inr ⟨_, rfl, insert_turn hget (seating_removed (.inl rfl))⟩
  | @disbanded actor id now c hget =>
    obtain ⟨c₁, hc₁, hown⟩ := hdisband actor id now rfl
    refine .inr ⟨actor, rfl, seating_turn fun id' => ?_⟩
    by_cases hid : id' = id
    · subst hid
      have hnone : ∀ u, memberIn (w.conversations.remove id') id' u = none := by
        intro u
        simp [memberIn, Map.get_remove]
      have hmember : memberIn w.conversations id' = c₁.members.get := by
        funext u
        simp [memberIn, hc₁]
      refine ⟨fun {u m} hu hu' => ?_, fun {u m} hu hu' => .inr ⟨?_, .inr (hnone actor)⟩,
        fun {u m m'} hu hu' => ?_⟩
      · cases (hnone u).symm.trans hu'
      · rw [hmember]
        exact hown.presides
      · cases (hnone u).symm.trans hu'
    · have hsame : memberIn (w.conversations.remove id) id' = memberIn w.conversations id' := by
        funext u
        simp [memberIn, Map.get_remove, hid]
      rw [hsame]
      exact .refl actor _
  | amended hget _ hactor htarget hallowed =>
    exact .inr ⟨_, rfl, insert_turn hget (seating_amended hactor htarget hallowed)⟩
  | @expelled actor id target now c c' hget _ hremove =>
    have hranks := Conversation.removeMember_outranks hremove
    obtain ⟨rfl, -, -, hne⟩ := Conversation.removeMember_ok hremove
    refine .inr ⟨actor, rfl, insert_turn hget (seating_removed (.inr ⟨hranks.presides, ?_⟩))⟩
    rw [Map.get_remove, if_neg hne]
    exact hranks.presides
  | transferred hget _ htransfer =>
    obtain ⟨hown, hmembers⟩ := Conversation.transferOwnership_cases htransfer
    refine .inr ⟨_, rfl, insert_turn hget ?_⟩
    rw [hmembers]
    exact seating_transferred hown
  | admitted _ _ hget hrole =>
    exact .inr ⟨_, rfl, insert_turn hget (seating_admitted rfl hrole)⟩
  | @detached actor currentPassword confirmation now =>
    refine .inr ⟨actor, rfl, seating_turn fun id => ?_⟩
    cases hget : w.conversations.get id with
    | none =>
      have hsame : memberIn (w.conversations.mapValues (·.detach actor now)) id =
          memberIn w.conversations id := by
        funext u
        simp [memberIn, hget]
      rw [hsame]
      exact .refl actor _
    | some c =>
      have hold : memberIn w.conversations id = c.members.get := by
        funext u
        simp [memberIn, hget]
      have hnew : memberIn (w.conversations.mapValues (·.detach actor now)) id =
          (c.detach actor now).members.get := by
        funext u
        simp [memberIn, hget]
      rw [hold, hnew]
      exact seating_detached

end

end IamRust
