import IamRust.L0Core.Interleave
import IamRust.L3Service.Reads
import IamRust.L4Properties.Log

/-!
# The bootstrap between the mutations

`bootstrap` takes the lock once for each part of its response, and once more for
the cursor, which it reads last. Mutations commit in between.

* `bootstrap_reflects`: each part is that of a store with the event, for every event
  addressed to the actor up to the cursor of the response, if the mutations that tell
  the actor something leave the parts that are already read as they were read.
* `bootstrap_misses_request`: a friend request between the read of the requests and
  that of the cursor is in no part of the response, and no later event tells of it.
-/
namespace IamRust

open Core

/-! ## The parts -/

inductive BootstrapPart where
  | profile
  | profilePrivacy
  | friends
  | friendSettings
  | friendRequests
  | friendRequestProfiles
  | conversations
  | conversationStates
  deriving DecidableEq

/-- In the order in which they are read. -/
def BootstrapPart.all : List BootstrapPart :=
  [.profile, .profilePrivacy, .friends, .friendSettings, .friendRequests, .friendRequestProfiles,
    .conversations, .conversationStates]

section
variable (lowercase : String → String) (s : Store) (actor : UserId) (r : BootstrapResponse)

/-- The part read into the response. -/
def BootstrapPart.read : BootstrapPart → Except ApplicationError BootstrapResponse
  | .profile => (IamRust.profile s actor).map fun profile => { r with profile := profile }
  | .profilePrivacy => .ok { r with profilePrivacy := IamRust.profilePrivacy s actor }
  | .friends => .ok { r with friends := IamRust.friends lowercase s actor }
  | .friendSettings => .ok { r with friendSettings := IamRust.friendSettings s actor }
  | .friendRequests => .ok { r with friendRequests := IamRust.friendRequests s actor }
  | .friendRequestProfiles =>
    .ok { r with friendRequestProfiles := IamRust.friendRequestProfiles lowercase s actor }
  | .conversations => .ok { r with conversations := IamRust.conversations s actor }
  | .conversationStates => .ok { r with conversationStates := IamRust.conversationStates s actor }

/-- The part of the response is that of the store. -/
def BootstrapPart.Of : BootstrapPart → Prop
  | .profile => IamRust.profile s actor = .ok r.profile
  | .profilePrivacy => r.profilePrivacy = IamRust.profilePrivacy s actor
  | .friends => r.friends = IamRust.friends lowercase s actor
  | .friendSettings => r.friendSettings = IamRust.friendSettings s actor
  | .friendRequests => r.friendRequests = IamRust.friendRequests s actor
  | .friendRequestProfiles =>
    r.friendRequestProfiles = IamRust.friendRequestProfiles lowercase s actor
  | .conversations => r.conversations = IamRust.conversations s actor
  | .conversationStates => r.conversationStates = IamRust.conversationStates s actor

end

/-- What the parts are read into. -/
def BootstrapResponse.blank (actor : UserId) : BootstrapResponse where
  profile := ⟨actor, "", "", none, none, "", none, none, none, .offline, none⟩
  profilePrivacy := .default
  friends := []
  friendSettings := []
  friendRequests := []
  friendRequestProfiles := []
  conversations := []
  conversationStates := []
  cursor := 0

section
variable {lowercase : String → String} {s s' : Store} {actor : UserId} {r r' : BootstrapResponse}
  {p q : BootstrapPart}

/-- A part that is read is that of the store. -/
theorem BootstrapPart.of_read (h : p.read lowercase s actor r = .ok r') :
    p.Of lowercase s actor r' := by
  cases p with
  | profile =>
    unfold BootstrapPart.read at h
    cases hp : IamRust.profile s actor with
    | error e => simp [hp, Except.map] at h
    | ok profile =>
      rw [hp] at h
      cases h
      exact hp
  | _ =>
    cases h
    rfl

/-- The others stay as they are. -/
theorem BootstrapPart.of_read_ne (h : p.read lowercase s actor r = .ok r') (hne : q ≠ p)
    (hq : q.Of lowercase s' actor r) : q.Of lowercase s' actor r' := by
  cases p with
  | profile =>
    unfold BootstrapPart.read at h
    cases hp : IamRust.profile s actor with
    | error e => simp [hp, Except.map] at h
    | ok profile =>
      rw [hp] at h
      cases h
      cases q <;> first | exact absurd rfl hne | exact hq
  | _ =>
    cases h
    cases q <;> first | exact absurd rfl hne | exact hq

end

/-! ## The tasks -/

/-- The store, and every store there has been (a ghost). -/
structure Stores where
  world : World
  past : List World

/-- Where a request is. -/
inductive Bootstrapping where
  | idle
  | reading (actor : UserId) (todo : List BootstrapPart) (response : BootstrapResponse)
  | answered (actor : UserId) (response : BootstrapResponse)

inductive BootstrapStep where
  | transaction (op : Op)
  | begin (actor : UserId)
  | read

section
variable (env : Env) (lowercase : String → String)

/-- mirrors crates/application/src/service.rs:4050-4079 -/
def Stores.step (g : Stores) : Bootstrapping → BootstrapStep → Option (Stores × Bootstrapping)
  | .idle, .transaction op =>
    match op.run env g.world with
    | .error _ => none
    | .ok (_, world) => some (⟨world, g.past ++ [world]⟩, .idle)
  | .idle, .begin actor => some (g, .reading actor BootstrapPart.all (.blank actor))
  | .reading actor (part :: todo) response, .read =>
    match part.read lowercase g.world.toStore actor response with
    | .error _ => some (g, .idle)
    | .ok response => some (g, .reading actor todo response)
  | .reading actor [] response, .read =>
    some (g, .answered actor { response with cursor := g.world.cursor })
  | _, _ => none

end

/-- The server, with any number of requests. -/
def bootstraps (ι : Type) (env : Env) (lowercase : String → String) :
    Threads ι Stores Bootstrapping BootstrapStep where
  init g tasks := (service env).Reachable g.world ∧ g.past = [g.world] ∧ ∀ i, tasks i = .idle
  step _ := Stores.step env lowercase

/-! ## The condition -/

/-- The mutation keeps the cursor below the largest; and where it tells an actor something, the
parts already read for them are those of the store it leaves. -/
def Undisturbed {ι : Type} (env : Env) (lowercase : String → String)
    (x : Stores × (ι → Bootstrapping)) (l : ι × BootstrapStep) : Prop :=
  match l.2 with
  | .transaction op => ∀ w', (op.run env).Runs x.1.world () w' → w'.cursor < u64Max ∧
    ∀ i actor todo r, x.2 i = .reading actor todo r →
      (∃ e ∈ w'.events.drop x.1.world.events.length, actor ∈ e.recipients) →
      ∀ p, p ∉ todo → BootstrapPart.Of lowercase w'.toStore actor r p
  | _ => True

/-! ## What a response reflects -/

section
variable {ι : Type} {env : Env} {lowercase : String → String} {g g' : Stores}
  {t t' : Bootstrapping} {l : BootstrapStep}

/-- A store with the event has the part. -/
def Stores.Reflects (g : Stores) (lowercase : String → String) (e : UserEvent) (actor : UserId)
    (r : BootstrapResponse) (p : BootstrapPart) : Prop :=
  ∃ w ∈ g.past, e ∈ w.events ∧ p.Of lowercase w.toStore actor r

/-- What is read so far reflects every event addressed to the actor; a response does, up to its
cursor. -/
def Bootstrapping.Reflects (lowercase : String → String) (g : Stores) : Bootstrapping → Prop
  | .idle => True
  | .reading actor todo r => ∀ e ∈ g.world.events, actor ∈ e.recipients → ∀ p, p ∉ todo →
    g.Reflects lowercase e actor r p
  | .answered actor r => r.cursor ≤ g.world.cursor ∧ ∀ e ∈ g.world.events,
    actor ∈ e.recipients → e.event.cursor ≤ r.cursor → ∀ p, g.Reflects lowercase e actor r p

theorem Stores.Reflects.mono {e : UserEvent} {actor : UserId} {r : BootstrapResponse}
    {p : BootstrapPart} (h : g.Reflects lowercase e actor r p)
    (hpast : ∀ w ∈ g.past, w ∈ g'.past) : g'.Reflects lowercase e actor r p := by
  obtain ⟨w, hw, h⟩ := h
  exact ⟨w, hpast w hw, h⟩

/-- A read, or a mutation. -/
theorem Stores.step_cases (h : g.step env lowercase t l = some (g', t')) :
    (∃ op w', l = .transaction op ∧ (op.run env).Runs g.world () w' ∧
      g' = ⟨w', g.past ++ [w']⟩ ∧ t' = .idle) ∨
    (g' = g ∧ (t' = .idle ∨ (∃ actor, t' = .reading actor BootstrapPart.all (.blank actor)) ∨
      (∃ actor p todo r r', t = .reading actor (p :: todo) r ∧
        p.read lowercase g.world.toStore actor r = .ok r' ∧ t' = .reading actor todo r') ∨
      ∃ actor r, t = .reading actor [] r ∧
        t' = .answered actor { r with cursor := g.world.cursor })) := by
  unfold Stores.step at h
  split at h
  · split at h
    · cases h
    · cases h
      exact .inl ⟨_, _, rfl, ‹_›, rfl, rfl⟩
  · cases h
    exact .inr ⟨rfl, .inr (.inl ⟨_, rfl⟩)⟩
  · split at h
    · cases h
      exact .inr ⟨rfl, .inl rfl⟩
    · cases h
      exact .inr ⟨rfl, .inr (.inr (.inl ⟨_, _, _, _, _, rfl, ‹_›, rfl⟩))⟩
  · cases h
    exact .inr ⟨rfl, .inr (.inr (.inr ⟨_, _, rfl, rfl⟩))⟩
  · cases h

theorem Bootstrapping.Reflects.own (hpast : g.world ∈ g.past)
    (ht : t.Reflects lowercase g) (h : g.step env lowercase t l = some (g', t')) :
    g'.world ∈ g'.past ∧ t'.Reflects lowercase g' := by
  rcases Stores.step_cases h with ⟨op, w', -, -, rfl, rfl⟩ | ⟨rfl, ht'⟩
  · exact ⟨List.mem_append_right _ (List.mem_singleton_self w'), trivial⟩
  refine ⟨hpast, ?_⟩
  rcases ht' with rfl | ⟨actor, rfl⟩ | ⟨actor, p, todo, r, r', rfl, hread, rfl⟩ |
    ⟨actor, r, rfl, rfl⟩
  · trivial
  · intro e _ _ p hp
    exact absurd (by cases p <;> simp [BootstrapPart.all]) hp
  · intro e he hto q hq
    by_cases hqp : q = p
    · subst hqp
      exact ⟨_, hpast, he, BootstrapPart.of_read hread⟩
    · obtain ⟨w, hw, hew, hof⟩ := ht e he hto q (by simp [hqp, hq])
      exact ⟨w, hw, hew, BootstrapPart.of_read_ne hread hqp hof⟩
  · refine ⟨Nat.le_refl _, fun e he hto _ p => ?_⟩
    obtain ⟨w, hw, hew, hof⟩ := ht e he hto p List.not_mem_nil
    exact ⟨w, hw, hew, by cases p <;> exact hof⟩

/-- What a mutation adds to the log is above the cursor. -/
theorem Op.cursor_lt {op : Op} {w w' : World} (hr : (op.run env).Runs w () w')
    (hc : w'.cursor < u64Max) : ∃ new, w'.events = w.events ++ new ∧ w.cursor ≤ w'.cursor ∧
      ∀ e ∈ new, w.cursor < e.event.cursor := by
  obtain ⟨new, he, hnumbered⟩ := ((op.evolves env).runs hr).log
  obtain ⟨hmap, hlength⟩ := hnumbered.cursors hc
  refine ⟨new, he, by omega, fun e hmem => ?_⟩
  have hcursor : e.event.cursor ∈ List.range' (w.cursor + 1) new.length :=
    hmap ▸ List.mem_map_of_mem hmem
  rw [List.mem_range'_1] at hcursor
  omega

/-- Another request keeps what it reflects. -/
theorem Bootstrapping.Reflects.other {tasks : ι → Bootstrapping} {i j : ι}
    (hok : Undisturbed env lowercase (g, tasks) (i, l))
    (hj : (tasks j).Reflects lowercase g) (h : g.step env lowercase t l = some (g', t')) :
    (tasks j).Reflects lowercase g' := by
  rcases Stores.step_cases h with ⟨op, w', rfl, hrun, rfl, -⟩ | ⟨rfl, -⟩
  swap
  · exact hj
  obtain ⟨hc, hread⟩ := hok w' hrun
  obtain ⟨new, hevents, hle, hnew⟩ := Op.cursor_lt hrun hc
  have hpast : ∀ w ∈ g.past, w ∈ g.past ++ [w'] := fun _ => List.mem_append_left _
  cases htask : tasks j with
  | idle => trivial
  | reading actor todo r =>
    rw [htask] at hj
    intro e he hto p hp
    rcases List.mem_append.mp (hevents ▸ he : e ∈ g.world.events ++ new) with hold | hadded
    · exact (hj e hold hto p hp).mono hpast
    · refine ⟨w', List.mem_append_right _ (List.mem_singleton_self w'), he, ?_⟩
      refine hread j actor todo r htask ⟨e, ?_, hto⟩ p hp
      rw [hevents, List.drop_left]
      exact hadded
  | answered actor r =>
    rw [htask] at hj
    refine ⟨hj.1.trans hle, fun e he hto hcursor p => ?_⟩
    rcases List.mem_append.mp (hevents ▸ he : e ∈ g.world.events ++ new) with hold | hadded
    · exact (hj.2 e hold hto hcursor p).mono hpast
    · exact absurd (hnew e hadded) (Nat.not_lt.mpr (hcursor.trans hj.1))

end

/-! ## Every interleaving -/

theorem bootstraps_inductive (ι : Type) [DecidableEq ι] (env : Env) (lowercase : String → String) :
    ((bootstraps ι env lowercase).lts.restrict (Undisturbed env lowercase)).Inductive
      (Threads.Holds (fun g => g.world ∈ g.past) (fun g t => t.Reflects lowercase g)
        fun _ _ => True) := by
  refine Threads.holds_inductive ?_ (fun _ _ _ => trivial) ?_ ?_
  · rintro ⟨g, tasks⟩ ⟨-, hpast, hidle⟩
    refine ⟨?_, fun i => ?_, fun _ _ _ => trivial⟩
    · rw [hpast]
      exact List.mem_singleton_self g.world
    · rw [hidle i]
      trivial
  · rintro ⟨g, tasks⟩ i l g' t' - hpast ht hstep
    exact ht.own hpast hstep
  · rintro ⟨g, tasks⟩ i l g' t' j hok - - - hj - hstep
    exact ⟨hj.other hok hstep, trivial⟩

/-- **The bootstrap reflects its cursor.** In every interleaving in which a mutation that tells an
actor something leaves the parts already read for them as they were read, and the cursor stays
below the largest: each part of a response is that of a store with the event, for every event
addressed to the actor up to the cursor of the response. -/
theorem bootstrap_reflects (ι : Type) [DecidableEq ι] (env : Env) (lowercase : String → String)
    (x : Stores × (ι → Bootstrapping))
    (hx : ((bootstraps ι env lowercase).lts.restrict (Undisturbed env lowercase)).Reachable x)
    (i : ι) (actor : UserId) (r : BootstrapResponse) (hr : x.2 i = .answered actor r)
    (e : UserEvent) (he : e ∈ x.1.world.events) (hto : actor ∈ e.recipients)
    (hcursor : e.event.cursor ≤ r.cursor) (p : BootstrapPart) :
    x.1.Reflects lowercase e actor r p := by
  have ht := ((bootstraps_inductive ι env lowercase).reachable hx).thread i
  rw [hr] at ht
  exact ht.2 e he hto hcursor p

/-! ## Two runs -/

def Stores.fresh : Stores := ⟨World.init, [World.init]⟩

def aliceAndBobRegister {ι : Type} (i : ι) : List (ι × BootstrapStep) :=
  [(i, .transaction (.register alice 0)), (i, .transaction (.register bob 0))]

def bobAsks {ι : Type} (i : ι) : List (ι × BootstrapStep) :=
  [(i, .transaction (.sendFriendRequest 4 "alice" "" 0))]

/-- The parts up to some, or all of them and the cursor. -/
def reads {ι : Type} (i : ι) (n : Nat) : List (ι × BootstrapStep) := List.replicate n (i, .read)

/-- The condition for one request, decided: it waits while the mutations commit. -/
def undisturbed (env : Env) (x : Stores × (Unit → Bootstrapping)) (l : Unit × BootstrapStep) :
    Bool :=
  match l.2 with
  | .transaction op => (op.run env x.1.world).toOption.all fun (a : Unit × World) =>
    decide (a.2.cursor < u64Max) && ((x.2 ()) matches .idle)
  | _ => true

theorem undisturbed_of_check (env : Env) (lowercase : String → String)
    (x : Stores × (Unit → Bootstrapping)) (l : Unit × BootstrapStep)
    (h : undisturbed env x l = true) : Undisturbed env lowercase x l := by
  unfold undisturbed Undisturbed at *
  split at h
  · intro w' hrun
    have hrun : Op.run env _ x.1.world = .ok ((), w') := hrun
    rw [hrun] at h
    obtain ⟨hc, hidle⟩ := Bool.and_eq_true_iff.mp h
    refine ⟨of_decide_eq_true hc, fun i actor todo r htask => ?_⟩
    have htask : x.2 () = .reading actor todo r := htask
    rw [htask] at hidle
    cases hidle
  · trivial

/-- Bob asks Alice, and then she bootstraps. -/
theorem bootstrap_reflects_request : ∃ (x : Stores × (Unit → Bootstrapping))
    (r : BootstrapResponse) (e : UserEvent), x.2 () = .answered 1 r ∧ e ∈ x.1.world.events ∧
      1 ∈ e.recipients ∧ e.event.cursor ≤ r.cursor ∧
      ∀ p, x.1.Reflects Text.toAsciiLowercase e 1 r p := by
  obtain ⟨x, hx, hp⟩ := (bootstraps Unit Env.numbered Text.toAsciiLowercase).reaches_checked
    (undisturbed_of_check Env.numbered Text.toAsciiLowercase) (.fresh, fun _ => .idle)
    ⟨.init rfl, rfl, fun _ => rfl⟩
    (aliceAndBobRegister () ++ bobAsks () ++ [((), .begin 1)] ++ reads () 9)
    (fun x => match x.2 () with
      | .answered actor r => decide (actor = 1) && x.1.world.events.any fun (e : UserEvent) =>
        decide (1 ∈ e.recipients) && decide (e.event.cursor ≤ r.cursor)
      | _ => false) (by decide +kernel)
  cases htask : x.2 () with
  | answered actor r =>
    simp only [htask, Bool.and_eq_true, decide_eq_true_eq, List.any_eq_true] at hp
    obtain ⟨rfl, e, he, hto, hcursor⟩ := hp
    exact ⟨x, r, e, htask, he, hto, hcursor, bootstrap_reflects Unit Env.numbered
      Text.toAsciiLowercase x hx () 1 r htask e he hto hcursor⟩
  | _ => simp [htask] at hp

/-- Bob asks Alice after her requests are read, and before the cursor is. -/
theorem bootstrap_misses_request : ∃ (x : Stores × (Bool → Bootstrapping))
    (r : BootstrapResponse) (e : UserEvent),
    (bootstraps Bool Env.numbered Text.toAsciiLowercase).lts.Reachable x ∧
      x.2 false = .answered 1 r ∧ e ∈ x.1.world.events ∧ 1 ∈ e.recipients ∧
      e.event.cursor ≤ r.cursor ∧
      ¬ x.1.Reflects Text.toAsciiLowercase e 1 r .friendRequests := by
  obtain ⟨x, hx, hp⟩ := (bootstraps Bool Env.numbered Text.toAsciiLowercase).reaches
    (.fresh, fun _ => .idle) ⟨.init rfl, rfl, fun _ => rfl⟩
    (aliceAndBobRegister true ++ [(false, .begin 1)] ++ reads false 5 ++ bobAsks true ++
      reads false 4)
    (fun x => match x.2 false with
      | .answered actor r => decide (actor = 1) && r.friendRequests.isEmpty &&
        (x.1.past.all fun (w : World) => w.events.isEmpty ||
          !(friendRequests w.toStore 1).isEmpty) &&
        x.1.world.events.any fun (e : UserEvent) =>
          decide (1 ∈ e.recipients) && decide (e.event.cursor ≤ r.cursor)
      | _ => false) (by decide +kernel)
  cases htask : x.2 false with
  | answered actor r =>
    simp only [htask, Bool.and_eq_true, decide_eq_true_eq, List.any_eq_true] at hp
    obtain ⟨⟨⟨rfl, hempty⟩, hpast⟩, e, he, hto, hcursor⟩ := hp
    refine ⟨x, r, e, hx, htask, he, hto, hcursor, ?_⟩
    rintro ⟨w, hw, hew, hof⟩
    have hof : r.friendRequests = friendRequests w.toStore 1 := hof
    have hw := List.all_eq_true.mp hpast w hw
    rw [← hof, hempty] at hw
    have hnone : w.events = [] := by simpa using hw
    rw [hnone] at hew
    exact List.not_mem_nil hew
  | _ => simp [htask] at hp

end IamRust
