import IamRust.L4Properties.Profiles

/-!
# The account directory

A login name is looked up in two indexes, by email and by username. What keeps
the two apart is the character `@`: an email has one, a username has none, and
neither trimming nor the ASCII lower case adds or drops it.

* `Listed`: the indexes list the accounts that are not deleted, each under one
  key of each.
* `directory_consistent`: they do in every reachable store, so a name denotes
  at most one account.
-/
namespace Core.Text

/-! ## Characters of a text -/

theorem mem_dropWhile_of_not {α : Type} {p : α → Bool} {l : List α} {a : α} (h : a ∈ l)
    (ha : p a = false) : a ∈ l.dropWhile p := by
  induction l with
  | nil => cases h
  | cons b l ih =>
    rw [List.dropWhile_cons]
    split
    · rcases List.mem_cons.mp h with rfl | h
      · simp_all
      · exact ih h
    · exact h

/-- Trimming keeps what is no white space. -/
theorem mem_trim {s : String} {c : Char} (h : c ∈ s.toList) (hc : isWhitespace c = false) :
    c ∈ (trim s).toList := by
  unfold trim
  rw [String.toList_ofList, List.mem_reverse]
  refine mem_dropWhile_of_not ?_ hc
  rw [List.mem_reverse]
  exact mem_dropWhile_of_not h hc

/-- Only `@` has the lower case `@`. -/
theorem lowerChar_eq_at {c : Char} : lowerChar c = '@' ↔ c = '@' := by
  unfold lowerChar
  split
  · rename_i hupper
    have hA : 'A'.toNat = 65 := rfl
    have hZ : 'Z'.toNat = 90 := rfl
    have hat : '@'.toNat = 64 := rfl
    have hletters : ∀ k : Fin 26, Char.ofNat (97 + k.val) ≠ '@' := by decide
    have hlower := hletters ⟨c.toNat - 65, by omega⟩
    rw [show 97 + (c.toNat - 65) = c.toNat + 32 by omega] at hlower
    refine iff_of_false hlower ?_
    rintro rfl
    omega
  · exact Iff.rfl

theorem at_mem_toAsciiLowercase {s : String} :
    '@' ∈ (toAsciiLowercase s).toList ↔ '@' ∈ s.toList := by
  unfold toAsciiLowercase
  rw [String.toList_ofList, List.mem_map]
  simp only [lowerChar_eq_at, exists_eq_right]

/-- Without the separator there is one piece. -/
theorem split_of_not_mem {sep : Char} {l : List Char} (h : sep ∉ l) : split sep l = [l] := by
  induction l with
  | nil => rfl
  | cons c l ih =>
    rw [List.mem_cons, not_or] at h
    unfold split
    rw [ih h.2]
    exact if_neg (Ne.symm h.1)

end Core.Text

namespace IamRust

open Core

/-- An email has an `@`. -/
theorem at_mem_of_validateEmail {value : String} (h : validateEmail value = .ok ()) :
    '@' ∈ value.toList := by
  by_contra hnone
  have hmatch : matchesEmail value = false := by
    unfold matchesEmail
    rw [Text.split_of_not_mem hnone]
  unfold validateEmail at h
  rw [if_pos (.inr hmatch)] at h
  cases h

/-- A username has none. -/
theorem at_not_mem_of_validateUsername {value : String} (h : validateUsername value = .ok ()) :
    '@' ∉ value.toList := by
  unfold validateUsername at h
  dsimp only at h
  split at h
  · cases h
  · rename_i hvalid
    rw [not_or, Bool.not_eq_false, List.all_eq_true] at hvalid
    exact fun hmem => absurd (hvalid.2 _ hmem) (by decide)

/-! ## The invariant -/

/-- The indexes list the accounts that are not deleted. -/
structure Listed (s : Store) : Prop where
  email : ∀ key u, s.byEmail.get key = some u →
    '@' ∈ key.toList ∧ ∃ a, s.accounts.get u = some a ∧ a.deletedAt = none
  username : ∀ key u, s.byUsername.get key = some u →
    '@' ∉ key.toList ∧ ∃ a, s.accounts.get u = some a ∧ a.deletedAt = none
  emailKey : ∀ u a, s.accounts.get u = some a → a.deletedAt = none →
    ∃! key, s.byEmail.get key = some u
  usernameKey : ∀ u a, s.accounts.get u = some a → a.deletedAt = none →
    ∀ key, s.byUsername.get key = some u ↔ key = Text.toAsciiLowercase a.profile.username

/-- The user whose account the transaction deletes. -/
def Op.deleted : Op → Option UserId
  | .deleteAccount u _ _ _ => some u
  | _ => none

section
variable {env : Env} {w w' : World} {op : Op} {u : UserId}

/-- What the directory shows of an account changes with its deletion only. -/
theorem AccountStep.listing {a a' : Account} (h : AccountStep env w op u a a') :
    (op.deleted = some u → a'.deletedAt.isSome = true) ∧
    (op.deleted ≠ some u →
      a'.deletedAt = a.deletedAt ∧ a'.profile.username = a.profile.username) := by
  cases h with
  | same hother =>
    refine ⟨fun hd => absurd ?_ hother, fun _ => ⟨rfl, rfl⟩⟩
    cases op <;> first | exact hd | cases hd
  | loggedIn _ hverified | disabled hverified | regenerated hverified =>
    obtain ⟨state, rfl⟩ := verifySecondFactor_ok hverified
    exact ⟨nofun, fun _ => ⟨rfl, rfl⟩⟩
  | prepared | enabled | passwordChanged | passwordReset | connected | suspension =>
    exact ⟨nofun, fun _ => ⟨rfl, rfl⟩⟩
  | updated hchanges => exact ⟨nofun, fun _ => ⟨rfl, (updatePublicFields_ok hchanges).2.1⟩⟩
  | deleted => exact ⟨fun _ => rfl, fun hne => absurd rfl hne⟩

/-- The keys of a deleted account go. -/
theorem Op.indexes (hr : (op.run env).Runs w () w') (hop : ∀ input now, op ≠ .register input now)
    (key : String) :
    (w'.byEmail.get key = some u ↔ w.byEmail.get key = some u ∧ op.deleted ≠ some u) ∧
    (w'.byUsername.get key = some u ↔ w.byUsername.get key = some u ∧ op.deleted ≠ some u) := by
  have hother : Field.byEmail ∉ op.touches ++ logFields →
      Field.byUsername ∉ op.touches ++ logFields → op.deleted = none →
      (w'.byEmail.get key = some u ↔ w.byEmail.get key = some u ∧ op.deleted ≠ some u) ∧
      (w'.byUsername.get key = some u ↔
        w.byUsername.get key = some u ∧ op.deleted ≠ some u) := by
    intro hemail husername hnone
    have hemail : w'.byEmail = w.byEmail := Op.same hr hemail
    have husername : w'.byUsername = w.byUsername := Op.same hr husername
    simp [hemail, husername, hnone]
  cases op
  case register input now => exact absurd rfl (hop input now)
  case deleteAccount actor currentPassword confirmation now =>
    obtain ⟨_, hr⟩ := Tx.runs_void.mp hr
    have h := deleteAccount_deletes hr
    rw [h.byEmail, h.byUsername]
    simp [Op.deleted, Option.filter_eq_some_iff, eq_comm (a := actor)]
  all_goals
    exact hother (by dsimp only [Op.touches]; decide) (by dsimp only [Op.touches]; decide) rfl

/-- A registration lists the new account under keys that were free. -/
theorem Listed.register (h : Listed w.toStore) (hnew : w.accounts.get (env.uuid w.nextUuid) = none)
    {input : RegisterInput} {now : DateTime} (hr : Registers env w input now w') :
    Listed w'.toStore := by
  obtain ⟨hash, haccounts⟩ := hr.accounts
  have hold : ∀ key, w.byEmail.get key ≠ some (env.uuid w.nextUuid) ∧
      w.byUsername.get key ≠ some (env.uuid w.nextUuid) := by
    intro key
    constructor
    · intro hkey
      obtain ⟨-, a, ha, -⟩ := h.email key _ hkey
      cases hnew.symm.trans ha
    · intro hkey
      obtain ⟨-, a, ha, -⟩ := h.username key _ hkey
      cases hnew.symm.trans ha
  have hlisted : ∀ u, (∃ a, w.accounts.get u = some a ∧ a.deletedAt = none) →
      ∃ a, w'.accounts.get u = some a ∧ a.deletedAt = none := by
    rintro u ⟨a, ha, hd⟩
    refine ⟨a, ?_, hd⟩
    rw [haccounts, Map.get_insert_ne (by rintro rfl; cases hnew.symm.trans ha)]
    exact ha
  have hself : ∃ a, w'.accounts.get (env.uuid w.nextUuid) = some a ∧ a.deletedAt = none :=
    ⟨_, by rw [haccounts, Map.get_insert_self], rfl⟩
  constructor
  · intro key u hkey
    rw [hr.byEmail, Map.get_insert] at hkey
    split at hkey
    · subst_vars
      cases hkey
      exact ⟨Text.at_mem_toAsciiLowercase.mpr
        (Text.mem_trim (at_mem_of_validateEmail hr.email) (by decide)), hself⟩
    · exact (h.email key u hkey).imp_right (hlisted u)
  · intro key u hkey
    rw [hr.byUsername, Map.get_insert] at hkey
    split at hkey
    · subst_vars
      cases hkey
      exact ⟨fun hmem => at_not_mem_of_validateUsername hr.username
        (Text.at_mem_toAsciiLowercase.mp hmem), hself⟩
    · exact (h.username key u hkey).imp_right (hlisted u)
  · intro u a ha hd
    rw [haccounts, Map.get_insert] at ha
    rw [hr.byEmail]
    split at ha
    · subst_vars
      refine ⟨_, Map.get_insert_self .., fun key hkey => ?_⟩
      dsimp only at hkey
      rw [Map.get_insert] at hkey
      split at hkey
      · assumption
      · exact absurd hkey (hold key).1
    · rename_i hne
      obtain ⟨key, hkey, hunique⟩ := h.emailKey u a ha hd
      refine ⟨key, ?_, fun key' hkey' => hunique key' ?_⟩
      · dsimp only
        rw [Map.get_insert_ne (by rintro rfl; cases hr.freeEmail.symm.trans hkey)]
        exact hkey
      · dsimp only at hkey'
        rw [Map.get_insert] at hkey'
        split at hkey'
        · cases hkey'
          exact absurd rfl hne
        · exact hkey'
  · intro u a ha hd key
    rw [haccounts, Map.get_insert] at ha
    rw [hr.byUsername, Map.get_insert]
    split at ha
    · cases ha
      subst_vars
      show _ ↔ key = Text.toAsciiLowercase input.username
      split
      · simp [*]
      · exact iff_of_false (hold key).2 ‹_›
    · rename_i hne
      rw [← h.usernameKey u a ha hd key]
      split
      · subst_vars
        simp [hr.freeUsername, Ne.symm hne]
      · rfl

/-- Any other transaction takes the keys of the account it deletes. -/
theorem Listed.other (h : Listed w.toStore) (hr : (op.run env).Runs w () w')
    (hop : ∀ input now, op ≠ .register input now) : Listed w'.toStore := by
  obtain ⟨hstep, hnone⟩ := Op.accounts hr hop
  have hindexes := fun key u => Op.indexes hr hop (u := u) key
  have hlisted : ∀ u, op.deleted ≠ some u → (∃ a, w.accounts.get u = some a ∧ a.deletedAt = none) →
      ∃ a, w'.accounts.get u = some a ∧ a.deletedAt = none := by
    rintro u hne ⟨a, ha, hd⟩
    obtain ⟨a', ha', hs⟩ := hstep u a ha
    exact ⟨a', ha', (hs.listing.2 hne).1.trans hd⟩
  -- an account that is not deleted now was not deleted before
  have hbefore : ∀ u a', w'.accounts.get u = some a' → a'.deletedAt = none →
      op.deleted ≠ some u ∧ ∃ a, w.accounts.get u = some a ∧ a.deletedAt = none ∧
        a'.profile.username = a.profile.username := by
    intro u a' ha' hd
    cases ha : w.accounts.get u with
    | none => cases (hnone u ha).2.symm.trans ha'
    | some a =>
      obtain ⟨b, hb, hs⟩ := hstep u a ha
      cases hb.symm.trans ha'
      have hne : op.deleted ≠ some u := fun hdel => by
        have := hs.listing.1 hdel
        simp [hd] at this
      obtain ⟨hsame, husername⟩ := hs.listing.2 hne
      exact ⟨hne, a, rfl, hsame.symm.trans hd, husername⟩
  constructor
  · intro key u hkey
    obtain ⟨hkey, hne⟩ := (hindexes key u).1.mp hkey
    exact (h.email key u hkey).imp_right (hlisted u hne)
  · intro key u hkey
    obtain ⟨hkey, hne⟩ := (hindexes key u).2.mp hkey
    exact (h.username key u hkey).imp_right (hlisted u hne)
  · intro u a' ha' hd
    obtain ⟨hne, a, ha, hd, -⟩ := hbefore u a' ha' hd
    simp only [(hindexes _ u).1, hne, ne_eq, not_false_eq_true, and_true]
    exact h.emailKey u a ha hd
  · intro u a' ha' hd key
    obtain ⟨hne, a, ha, hd, husername⟩ := hbefore u a' ha' hd
    rw [(hindexes key u).2, husername, ← h.usernameKey u a ha hd key]
    exact and_iff_left hne

theorem listed_inductive (hu : Function.Injective env.uuid) :
    (service env).Inductive fun w => AccountsDrawn env w ∧ Listed w.toStore where
  init w h := by
    refine ⟨(accountsDrawn_inductive env).init w h, ?_⟩
    have h : w = World.init := h
    subst h
    constructor <;> intro key u hkey <;> cases (Map.get_empty _).symm.trans hkey
  step w op w' h hr := by
    refine ⟨(accountsDrawn_inductive env).step w op w' h.1 hr, ?_⟩
    by_cases hop : ∀ input now, op ≠ .register input now
    · exact h.2.other hr hop
    · simp only [not_forall, not_not] at hop
      obtain ⟨input, now, rfl⟩ := hop
      obtain ⟨session, hr⟩ := Tx.runs_void.mp hr
      refine h.2.register ?_ (register_registers hr)
      by_contra hsome
      obtain ⟨a, ha⟩ := Option.ne_none_iff_exists'.mp hsome
      obtain ⟨k, hk, he⟩ := h.1 _ a ha
      have := hu he
      omega

end

/-- **The directory is consistent** in every reachable store: a key of either index is one of an
account that is not deleted, such an account has one key in each, the one by username being its
username in lower case, and whatever two accounts are listed under one key, in either index, are
the same; no key is in both. -/
theorem directory_consistent (env : Env) (hu : Function.Injective env.uuid) (w : World)
    (hw : (service env).Reachable w) :
    (∀ key u, w.byEmail.get key = some u ∨ w.byUsername.get key = some u →
      ∃ a, w.accounts.get u = some a ∧ a.deletedAt = none) ∧
    (∀ u a, w.accounts.get u = some a → a.deletedAt = none →
      (∃! key, w.byEmail.get key = some u) ∧
      ∀ key, w.byUsername.get key = some u ↔ key = Text.toAsciiLowercase a.profile.username) ∧
    (∀ key u v, w.byEmail.get key = some u → w.byUsername.get key ≠ some v) ∧
    ∀ key u v, w.byEmail.get key = some u ∨ w.byUsername.get key = some u →
      w.byEmail.get key = some v ∨ w.byUsername.get key = some v → u = v := by
  have h := ((listed_inductive hu).reachable hw).2
  have hdisjoint : ∀ key u v, w.byEmail.get key = some u → w.byUsername.get key ≠ some v :=
    fun key u v hemail husername => (h.username key v husername).1 (h.email key u hemail).1
  refine ⟨?_, fun u a ha hd => ⟨h.emailKey u a ha hd, h.usernameKey u a ha hd⟩, hdisjoint, ?_⟩
  · rintro key u (hkey | hkey)
    · exact (h.email key u hkey).2
    · exact (h.username key u hkey).2
  · rintro key u v (hu | hu) (hv | hv)
    · exact Option.some.inj (hu.symm.trans hv)
    · exact absurd hv (hdisjoint key u v hu)
    · exact absurd hu (hdisjoint key v u hv)
    · exact Option.some.inj (hu.symm.trans hv)

/-- Alice and Bob register, and Bob deletes his account. -/
theorem directory_consistent_alice : ∃ w, (service Env.numbered).Reachable w ∧
    w.byEmail.get "alice@example.com" = some 1 ∧ w.byUsername.get "bob" = none ∧
    ∀ v, w.byUsername.get "alice@example.com" ≠ some v := by
  obtain ⟨w, hw, hp⟩ := reaches Env.numbered
    [.register alice 0, .register bob 0, .deleteAccount 4 "Passw0rd123" "DELETE" 0]
    (fun w => w.byEmail.get "alice@example.com" == some 1 && w.byUsername.get "bob" == none)
    (by decide +kernel)
  simp only [Bool.and_eq_true, beq_iff_eq] at hp
  have hreach := reachable_of_run hw
  exact ⟨w, hreach, hp.1, hp.2, fun v =>
    (directory_consistent Env.numbered Env.numbered_injective w hreach).2.2.1 _ 1 v hp.1⟩

end IamRust
