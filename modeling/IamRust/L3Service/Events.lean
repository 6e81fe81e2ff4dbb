import IamRust.L2Store.Store

/-!
# The event log and shared lookups

`appendEvent` is the only place where the service writes the log and the
cursor. `Evolves fs` is what every operation keeps: it writes no field outside
`fs` (the log, the cursor and the draw counters apart), the log is extended by
events that each take the next cursor, and draws are never given back.
-/
namespace IamRust

open Core

section
variable (env : Env)

/-- mirrors crates/application/src/service.rs:5252-5269 -/
def appendEvent (recipients : List UserId) (kind : EventKind) (payload : EventPayload)
    (now : DateTime) : Service Unit := do
  update .cursor fun w => saturatingSucc w.cursor
  let id ← newUuid env
  let w ← get
  let event : SyncEvent := ⟨id, w.cursor, kind, payload, now⟩
  update .events fun w => w.events ++ [⟨recipients.toFinset, event⟩]

/-- The account of a user who has not deleted it, the guard of the account operations.
mirrors crates/application/src/service.rs:886-890 -/
def Store.activeAccount (s : Store) (actor : UserId) : Option Account :=
  (s.accounts.get actor).filter fun account => account.deletedAt.isNone

/-- mirrors crates/application/src/service.rs:4941-4946 -/
def areFriends (s : Store) (a b : UserId) : Bool :=
  s.friendships.any fun friendship => friendship.contains a && friendship.contains b

/-- mirrors crates/application/src/service.rs:4962-4966 -/
def canView (s : Store) (viewer target : UserId) : ProfileVisibility → Bool
  | .everyone => true
  | .friends => areFriends s viewer target
  | .nobody => false

/-- mirrors crates/application/src/service.rs:4948-4988 -/
def visibleProfile (s : Store) (viewer target : UserId) : Option UserProfile :=
  (s.activeAccount target).map fun account =>
    let profile := account.profile
    if viewer = target then profile
    else
      let privacy := (s.profilePrivacy.get target).getD .default
      let sees := canView s viewer target
      let settingHidesPresence :=
        (s.friendSettings.get (target, viewer)).any fun settings => !settings.sharePresence
      let hidden := profile.presence == .invisible || !sees privacy.presenceVisibility ||
        settingHidesPresence
      { profile with
        gender := if sees privacy.genderVisibility then profile.gender else none
        birthday := if sees privacy.birthdayVisibility then profile.birthday else none
        region := if sees privacy.regionVisibility then profile.region else none
        presence := if hidden then .offline else profile.presence
        lastSeenAt := if hidden then none else profile.lastSeenAt }

/-- mirrors crates/application/src/service.rs:4990-5026 -/
def appendProfileEvents (actor : UserId) (profile : UserProfile) (now : DateTime) :
    Service Unit := do
  let w ← get
  let recipients := (w.friendships.filter (·.contains actor)).map (·.other actor)
  appendEvent env [actor] .presenceUpdated (.profile profile) now
  Tx.forEach recipients fun recipient => do
    let w ← get
    let visible ← Tx.okOr (visibleProfile w.toStore recipient actor) .notFound
    appendEvent env [recipient] .presenceUpdated (.profile visible) now

end

/-- `?` on a domain check. -/
def check (r : Except DomainError Unit) : Service Unit := Tx.ofExcept (liftDomain r)

@[simp] theorem check_runs {r : Except DomainError Unit} {u : Unit} {w w' : World} :
    (check r).Runs w u w' ↔ r = .ok () ∧ w' = w := by
  simp [check, liftDomain_ok]

@[simp] theorem check_bind_runs {α : Type} {r : Except DomainError Unit} {f : Unit → Service α}
    {a : α} {w w' : World} :
    (check r >>= f).Runs w a w' ↔ r = .ok () ∧ (f ()).Runs w a w' := by
  simp only [check, Tx.runs_ofExcept_bind, liftDomain_ok]
  constructor
  · rintro ⟨⟨⟩, h⟩
    exact h
  · exact fun h => ⟨(), h⟩

/-! ## Conversations and messages -/

/-- mirrors crates/application/src/service.rs:5041-5052 -/
def conversationForUser (conversation : Conversation) (userId : UserId) : Conversation :=
  match conversation.kind, conversation.members.keys.find? (· ≠ userId) with
  | .direct _, some peer => { conversation with kind := .direct peer }
  | _, _ => conversation

/-- mirrors crates/application/src/service.rs:5054-5062 -/
def storeConversation (conversation : Conversation) : Service Unit := do
  Tx.forEach conversation.members.keys fun userId =>
    update .conversationSettings fun w =>
      w.conversationSettings.orInsert (userId, conversation.id)
        (defaultConversationSettings conversation.id)
  update .conversations fun w => w.conversations.insert conversation.id conversation

/-- mirrors crates/application/src/service.rs:5064-5070 -/
def findMessage (s : Store) (messageId : MessageId) : Option Message :=
  s.messages.values.flatten.find? (·.id == messageId)

/-- mirrors crates/application/src/service.rs:4664-4669 -/
def ensureGroup (conversation : Conversation) : Except ApplicationError Unit :=
  if conversation.isGroup then .ok () else .error .notFound

/-- mirrors crates/application/src/service.rs:4671-4679 -/
def requireMember (conversation : Conversation) (userId : UserId) :
    Except ApplicationError ConversationMember :=
  match conversation.members.get userId with
  | some member => .ok member
  | none => .error forbidden

/-- mirrors crates/application/src/service.rs:4681-4690 -/
def requireRoleAtLeast (conversation : Conversation) (userId : UserId) (minimum : MemberRole) :
    Except ApplicationError Unit :=
  match requireMember conversation userId with
  | .error e => .error e
  | .ok member => if member.role < minimum then .error forbidden else .ok ()

@[simp] theorem ensureGroup_ok {c : Conversation} {u : Unit} :
    ensureGroup c = .ok u ↔ c.isGroup = true := by
  unfold ensureGroup; split <;> simp [*]

@[simp] theorem requireMember_ok {c : Conversation} {u : UserId} {m : ConversationMember} :
    requireMember c u = .ok m ↔ c.members.get u = some m := by
  unfold requireMember; split <;> simp [*]

@[simp] theorem requireRoleAtLeast_ok {c : Conversation} {u : UserId} {r : MemberRole} {x : Unit} :
    requireRoleAtLeast c u r = .ok x ↔ ∃ m, c.members.get u = some m ∧ r ≤ m.role := by
  unfold requireRoleAtLeast requireMember
  cases c.members.get u with
  | none => simp
  | some m =>
    have h : m.role < r ↔ ¬ r ≤ m.role := (Nat.not_le (a := r.rank) (b := m.role.rank)).symm
    by_cases hr : r ≤ m.role <;> simp [h, hr]

theorem appendEvent_runs {env : Env} {recipients : List UserId} {kind : EventKind}
    {payload : EventPayload} {now : DateTime} {w w' : World} {u : Unit} :
    (appendEvent env recipients kind payload now).Runs w u w' ↔
      w' = { w with
        cursor := saturatingSucc w.cursor
        nextUuid := w.nextUuid + 1
        events := w.events ++ [⟨recipients.toFinset,
          ⟨env.uuid w.nextUuid, saturatingSucc w.cursor, kind, payload, now⟩⟩] } := by
  simp [appendEvent]

theorem appendEvent_only {env : Env} {recipients : List UserId} {kind : EventKind}
    {payload : EventPayload} {now : DateTime} {w w' : World} {u : Unit}
    (h : (appendEvent env recipients kind payload now).Runs w u w') :
    Only [.events, .cursor, .nextUuid] w w' := by
  rw [appendEvent_runs.mp h]
  intro f hf
  cases f <;> first | rfl | simp at hf

/-! ## Relations kept by an operation

Each operation comes with one instance: what a relation `R` has to be for the
operation to keep it. The draws and the log are in every operation (`Logged`);
the other fields an operation writes are listed as `Ignores R f`, so the
instance also reads as the operation's footprint. -/

/-- `R` is kept by the draws and by `appendEvent`. -/
class Logged (env : Env) (R : World → World → Prop) : Prop where
  newUuid : Tx.Keeps R (newUuid env)
  fillBytes : ∀ len, Tx.Keeps R (fillBytes env len)
  appendEvent : ∀ recipients kind payload now,
    Tx.Keeps R (appendEvent env recipients kind payload now)

/-- It is, if it only looks at the log and the counters to see that draws are not given back. -/
theorem logged_of {env : Env} {R : World → World → Prop}
    (h : ∀ {w w'}, Only logFields w w' → w.nextUuid ≤ w'.nextUuid → R w w') : Logged env R where
  newUuid := ⟨fun hr => by
    obtain ⟨-, rfl⟩ := (newUuid_runs env).mp hr
    exact h ((only_set _ _ _).mono (by simp [logFields])) (Nat.le_succ _)⟩
  fillBytes _ := ⟨fun hr => by
    obtain ⟨-, rfl⟩ := (fillBytes_runs env).mp hr
    exact h ((only_set _ _ _).mono (by simp [logFields])) (Nat.le_refl _)⟩
  appendEvent _ _ _ _ := ⟨fun hr => by
    refine h ((appendEvent_only hr).mono (by simp [logFields])) ?_
    rw [appendEvent_runs.mp hr]
    exact Nat.le_succ _⟩

/-- `R` is kept by the draws: what an operation that appends no event needs. -/
class Drawing (env : Env) (R : World → World → Prop) : Prop where
  newUuid : Tx.Keeps R (newUuid env)
  fillBytes : ∀ len, Tx.Keeps R (fillBytes env len)

section
variable {env : Env} {R : World → World → Prop}

instance drawing_of_logged [hl : Logged env R] : Drawing env R := ⟨hl.newUuid, hl.fillBytes⟩

instance keeps_newUuid [hd : Drawing env R] : Tx.Keeps R (newUuid env) := hd.newUuid

instance keeps_fillBytes [hd : Drawing env R] {len : Nat} : Tx.Keeps R (fillBytes env len) :=
  hd.fillBytes len

variable [hl : Logged env R]

instance keeps_appendEvent {recipients : List UserId} {kind : EventKind} {payload : EventPayload}
    {now : DateTime} : Tx.Keeps R (appendEvent env recipients kind payload now) :=
  hl.appendEvent recipients kind payload now

variable [IsPreorder World R]

instance keeps_check {r : Except DomainError Unit} : Tx.Keeps R (check r) := by
  unfold check; infer_instance

instance keeps_appendProfileEvents {actor : UserId} {profile : UserProfile} {now : DateTime} :
    Tx.Keeps R (appendProfileEvents env actor profile now) := by
  unfold appendProfileEvents; infer_instance

end

instance keeps_storeConversation {R : World → World → Prop} [IsPreorder World R]
    [Ignores R .conversations] [Ignores R .conversationSettings] {c : Conversation} :
    Tx.Keeps R (storeConversation c) := by
  unfold storeConversation; infer_instance

/-! ## What every operation keeps -/

/-- `new` are events that take the cursors after `c` one by one, up to `c'`. -/
def Numbered : Nat → List UserEvent → Nat → Prop
  | c, [], c' => c' = c
  | c, e :: es, c' => e.event.cursor = saturatingSucc c ∧ Numbered (saturatingSucc c) es c'

theorem Numbered.append {c c₁ c₂ : Nat} {es es' : List UserEvent} (h : Numbered c es c₁)
    (h' : Numbered c₁ es' c₂) : Numbered c (es ++ es') c₂ := by
  induction es generalizing c with
  | nil => exact h ▸ h'
  | cons e es ih => exact ⟨h.1, ih h.2⟩

/-- Every field but those of the log. -/
abbrev recordFields : List Field :=
  accountFields ++ sessionFields ++ socialFields ++ groupFields ++ contentFields ++
    [.messages, .messageDedup]

theorem not_log_of_record {f : Field} (h : f ∈ recordFields) : f ∉ logFields := by
  revert h
  cases f <;> decide

structure Evolves (fs : List Field) (w w' : World) : Prop where
  only : Only (fs ++ logFields) w w'
  log : ∃ new, w'.events = w.events ++ new ∧ Numbered w.cursor new w'.cursor
  uuids : w.nextUuid ≤ w'.nextUuid
  randoms : w.nextRandom ≤ w'.nextRandom

instance (fs : List Field) : IsPreorder World (Evolves fs) where
  refl w := ⟨refl w, ⟨[], by simp [Numbered]⟩, Nat.le_refl _, Nat.le_refl _⟩
  trans w w₁ w₂ h₁ h₂ := by
    obtain ⟨new₁, he₁, hn₁⟩ := h₁.log
    obtain ⟨new₂, he₂, hn₂⟩ := h₂.log
    refine ⟨IsTrans.trans _ _ _ h₁.only h₂.only, ⟨new₁ ++ new₂, ?_, hn₁.append hn₂⟩,
      h₁.uuids.trans h₂.uuids, h₁.randoms.trans h₂.randoms⟩
    rw [he₂, he₁, List.append_assoc]

/-- A field an operation does not write is unchanged. -/
theorem Evolves.same {fs : List Field} {w w' : World} (h : Evolves fs w w') (f : Field)
    (hf : f ∉ fs ++ logFields) : Same f w w' := h.only f hf

/-- A write to a field of the list, the log and the counters apart. -/
theorem Evolves.set {f : Field} {fs : List Field} (hf : f ∈ fs) (hl : f ∉ logFields) (w : World)
    (v : f.Ty) : Evolves fs w (w.set f v) := by
  have same : ∀ g ∈ logFields, Same g w (w.set f v) := fun g hg =>
    same_set (by rintro rfl; exact hl hg) w v
  refine ⟨(only_set f w v).mono (by simpa using Or.inl hf), ⟨[], ?_, ?_⟩, ?_, ?_⟩
  · rw [List.append_nil]; exact same .events (by decide)
  · exact same .cursor (by decide)
  · exact Nat.le_of_eq (same .nextUuid (by decide)).symm
  · exact Nat.le_of_eq (same .nextRandom (by decide)).symm

instance evolves_ignores (f : Field) (fs : List Field) [hf : Has f fs] [hr : Has f recordFields] :
    Ignores (Evolves fs) f := ⟨Evolves.set hf.mem (not_log_of_record hr.mem)⟩

instance evolves_logged (env : Env) (fs : List Field) : Logged env (Evolves fs) where
  newUuid := ⟨fun h => by
    obtain ⟨rfl, rfl⟩ := (newUuid_runs env).mp h
    exact ⟨(only_set _ _ _).mono (by simp [logFields]), ⟨[], by simp [Numbered]⟩, Nat.le_succ _,
      Nat.le_refl _⟩⟩
  fillBytes _ := ⟨fun h => by
    obtain ⟨rfl, rfl⟩ := (fillBytes_runs env).mp h
    exact ⟨(only_set _ _ _).mono (by simp [logFields]), ⟨[], by simp [Numbered]⟩, Nat.le_refl _,
      Nat.le_succ _⟩⟩
  appendEvent _ _ _ _ := ⟨fun h => by
    refine ⟨(appendEvent_only h).mono (by simp [logFields]), ?_, ?_, ?_⟩ <;>
      rw [appendEvent_runs.mp h]
    · exact ⟨_, rfl, rfl, rfl⟩
    · exact Nat.le_succ _⟩

end IamRust
