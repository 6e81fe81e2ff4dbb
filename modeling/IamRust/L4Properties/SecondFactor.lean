import IamRust.L4Properties.AccountSteps

/-!
# Second factors

Which codes open an account with a second factor, over whole runs. Beside the
store a ledger of one user is kept: the secret of the factor that is enabled,
the recovery codes handed out, those of the current set and those of sets that
were replaced, and the ones accepted so far.

A code is what is left of a text once everything but its hexadecimal digits is
dropped, so it counts in any spelling (`SameCode`).

* `Held`: what the account keeps is the current set without the codes accepted.
* `second_factor_holds`: no password login without a code, each recovery code
  once, none of an older set.
-/
namespace Core

/-! ## Removing by swapping -/

/-- All but the element at the place. -/
theorem swapRemove_perm {α : Type} {l : List α} {i : Nat} (hi : i < l.length) :
    (IamRust.swapRemove l i).Perm (l.eraseIdx i) := by
  have hne : l ≠ [] := List.ne_nil_of_length_pos (by omega)
  have hlast : l.getLast? = some (l.getLast hne) := List.getLast?_eq_some_getLast hne
  unfold IamRust.swapRemove
  rw [hlast]
  dsimp only
  have hne' : l.set i (l.getLast hne) ≠ [] := by simpa using hne
  have hend : (l.set i (l.getLast hne)).getLast hne' = l.getLast hne := by
    rw [List.getLast_eq_getElem, List.getElem_set]
    split
    · rfl
    · simp [List.getLast_eq_getElem]
  have hset := List.set_perm_cons_eraseIdx hi (l.getLast hne)
  rw [← List.dropLast_append_getLast hne', hend] at hset
  exact (List.perm_cons _).mp ((List.perm_append_singleton _ _).symm.trans hset)

end Core

namespace IamRust

open Core

/-! ## Spellings of a code -/

/-- The two texts have the same hexadecimal digits. -/
def SameCode (text code : String) : Prop :=
  normalizeRecoveryCode text = normalizeRecoveryCode code

instance {text code : String} : Decidable (SameCode text code) :=
  inferInstanceAs (Decidable (_ = _))

/-- The first sixteen characters in groups of four. -/
def grouped (raw : List Char) : String :=
  String.ofList (raw.take 4 ++ ['-'] ++ (raw.drop 4).take 4 ++ ['-'] ++
    (raw.drop 8).take 4 ++ ['-'] ++ (raw.drop 12).take 4)

theorem grouped_take (raw : List Char) : grouped (raw.take 16) = grouped raw := by
  unfold grouped
  simp [List.take_take, List.drop_take]

/-- The hyphens are dropped again. -/
theorem normalize_grouped {raw : List Char}
    (h : ∀ c ∈ raw, Text.isAsciiHexdigit c = true ∧ Text.lowerChar c = c) :
    normalizeRecoveryCode (grouped raw) = String.ofList (raw.take 16) := by
  have hkept : ∀ l ⊆ raw, l.filter Text.isAsciiHexdigit = l := fun l hl =>
    List.filter_eq_self.mpr fun c hc => (h c (hl hc)).1
  have hlower : ∀ l ⊆ raw, l.map Text.lowerChar = l := fun l hl =>
    (List.map_congr_left fun c hc => (h c (hl hc)).2).trans (List.map_id l)
  have hgroup : ∀ n, (raw.drop n).take 4 ⊆ raw := fun n c hc =>
    List.mem_of_mem_drop (List.mem_of_mem_take hc)
  have hhyphen : ['-'].filter Text.isAsciiHexdigit = [] := by decide
  unfold normalizeRecoveryCode grouped
  rw [String.toList_ofList]
  simp only [List.filter_append, hhyphen, List.append_nil, hkept _ (List.take_subset 4 raw),
    hkept _ (hgroup _), List.map_append, hlower _ (List.take_subset 4 raw), hlower _ (hgroup _)]
  congr 1
  rw [show (16 : Nat) = 4 + (4 + (4 + 4)) from rfl, List.take_add, List.take_add, List.take_add,
    List.drop_drop, List.drop_drop]
  simp [List.append_assoc]

theorem toHex_digits {bytes : List UInt8} :
    ∀ c ∈ (Text.toHex bytes).toList, Text.isAsciiHexdigit c = true ∧ Text.lowerChar c = c := by
  have hdigit : ∀ n, Text.isAsciiHexdigit (Text.hexDigit n) = true ∧
      Text.lowerChar (Text.hexDigit n) = Text.hexDigit n := by
    have hall : ∀ k : Fin 16, Text.isAsciiHexdigit (Text.hexDigit k.val) = true ∧
        Text.lowerChar (Text.hexDigit k.val) = Text.hexDigit k.val := by decide
    intro n
    have hn : Text.hexDigit n = Text.hexDigit (n % 16) := by simp [Text.hexDigit]
    rw [hn]
    exact hall ⟨n % 16, Nat.mod_lt n (by decide)⟩
  intro c hc
  unfold Text.toHex at hc
  rw [String.toList_ofList, List.mem_flatMap] at hc
  obtain ⟨b, -, hc⟩ := hc
  simp only [Text.hexDigits, List.nil_append, List.cons_append, List.mem_cons, List.not_mem_nil,
    or_false] at hc
  rcases hc with rfl | rfl <;> exact hdigit _

/-- A code that was handed out is told by its digits. -/
theorem recoveryCodeText_of_sameCode {env : Env} {m n : Nat}
    (h : SameCode (recoveryCodeText env m) (recoveryCodeText env n)) :
    recoveryCodeText env m = recoveryCodeText env n := by
  have hcode : ∀ k, recoveryCodeText env k =
      grouped (Text.toHex (env.randomBytes k 8)).toList := fun _ => rfl
  unfold SameCode at h
  rw [hcode, hcode, normalize_grouped toHex_digits, normalize_grouped toHex_digits] at h
  rw [hcode, hcode, ← grouped_take, String.ofList_injective h, grouped_take]

/-! ## The ledger -/

/-- What became of the second factor of a user: the secret that is enrolled, if one is, the
recovery codes of the sets that were replaced, those of the current set, and the codes accepted. -/
structure FactorLedger where
  secret : Option (List UInt8) := none
  older : List String := []
  current : List String := []
  accepted : List String := []

/-- The code is that of the current step of 30 seconds or of an adjacent one. -/
def ValidTotp (env : Env) (secret : List UInt8) (now : DateTime) (code : String) : Prop :=
  let step := (max (now.fdiv 1000000000) 0).toNat / 30
  ∃ k ∈ [step - 1, step, saturatingSucc step], totpCode env secret k = code

section
variable (env : Env) (u : UserId)

/-- The secret a setup of the user is waiting to be confirmed. -/
def Store.pendingSecret (s : Store) : Option (List UInt8) :=
  (s.accounts.get u).bind fun a => a.pendingSecondFactor.bind fun pending =>
    (decryptSecret env pending.encryptedSecret).toOption

/-- The check of the user's second factor that comes with the operation: the code it is given, and
the time. -/
def Op.factorCode (w : World) : Op → Option (Option String × DateTime)
  | .loginWithSecondFactor input code now =>
    if w.loginUser input = some u then some (code, now) else none
  | .disableSecondFactor v _ code now => if v = u then some (some (Text.trim code), now) else none
  | .regenerateRecoveryCodes v _ code now =>
    if v = u then some (some (Text.trim code), now) else none
  | _ => none

/-- A text that is not valid as a TOTP code was accepted as a recovery code. -/
def FactorLedger.accept (l : FactorLedger) : Option (Option String × DateTime) → FactorLedger
  | some (some text, now) =>
    match l.secret with
    | none => l
    | some secret =>
      if verifyTotp env secret (Text.trim text) now then l
      else { l with accepted := l.accepted ++ (l.older ++ l.current).filter (SameCode text ·) }
  | _ => l

/-- The ledger after an operation that succeeded. -/
def FactorLedger.next (l : FactorLedger) (w : World) (op : Op) : FactorLedger :=
  let l := l.accept env (op.factorCode u w)
  match op with
  | .enableSecondFactor v _ _ =>
    if v = u then { l with
      secret := w.pendingSecret env u
      older := l.older ++ l.current
      current := recoveryCodes env w.nextRandom }
    else l
  | .disableSecondFactor v _ _ _ =>
    if v = u then { l with secret := none, older := l.older ++ l.current, current := [] } else l
  | .regenerateRecoveryCodes v _ _ _ =>
    if v = u then { l with
      older := l.older ++ l.current
      current := recoveryCodes env w.nextRandom }
    else l
  | _ => l

/-- Codes generated for the user are distinct, also from those handed out before. -/
def FactorLedger.NewCodes (l : FactorLedger) (w : World) : Op → Prop
  | .enableSecondFactor v _ _ => v = u →
    (l.older ++ l.current ++ recoveryCodes env w.nextRandom).Nodup
  | .regenerateRecoveryCodes v _ _ _ => v = u →
    (l.older ++ l.current ++ recoveryCodes env w.nextRandom).Nodup
  | _ => True

/-- The runs of the service with the ledger of the user. -/
def factorRuns : LTS (World × FactorLedger) Op where
  init x := x.1 = World.init ∧ x.2 = {}
  step x op x' := (op.run env).Runs x.1 () x'.1 ∧ x.2.NewCodes env u x.1 op ∧
    x'.2 = x.2.next env u x.1 op

end

/-! ## What the account keeps -/

/-- The account has the secret and the hashes of the codes that can still be used. -/
structure Enrolled (env : Env) (l : FactorLedger) (secret : List UInt8)
    (state : SecondFactorState) : Prop where
  secret : decryptSecret env state.encryptedSecret = .ok secret
  distinct : state.recoveryCodeHashes.Nodup
  hashes : ∀ h, h ∈ state.recoveryCodeHashes ↔
    ∃ c ∈ l.current, c ∉ l.accepted ∧ recoveryHash env c = h

/-- Codes are handed out and accepted once. -/
structure FactorLedger.Sound (env : Env) (l : FactorLedger) : Prop where
  codes : ∀ c ∈ l.older ++ l.current, ∃ n, c = recoveryCodeText env n
  distinct : (l.older ++ l.current).Nodup
  accepted : ∀ c ∈ l.accepted, c ∈ l.older ++ l.current
  once : l.accepted.Nodup

/-- **What the ledger is for.** -/
structure Held (env : Env) (u : UserId) (x : World × FactorLedger) : Prop where
  enrolled : ∀ secret, x.2.secret = some secret → ∃ a state, x.1.accounts.get u = some a ∧
    a.secondFactor = some state ∧ Enrolled env x.2 secret state
  free : x.2.secret = none → ∀ a, x.1.accounts.get u = some a → a.secondFactor = none
  sound : x.2.Sound env

section
variable {env : Env} {u : UserId} {w w' : World} {l : FactorLedger} {op : Op}

theorem validTotp_of_verify {secret : List UInt8} {code : String} {now : DateTime}
    (h : verifyTotp env secret code now = true) : ValidTotp env secret now code := by
  unfold verifyTotp at h
  split at h
  · cases h
  · simpa [ValidTotp, secureEq] using h

theorem recoveryHash_inj (hh : Function.Injective env.sha256) {text code : String} :
    recoveryHash env text = recoveryHash env code ↔ SameCode text code := by
  unfold recoveryHash hashToken SameCode
  exact ⟨fun h => Text.bytes_injective (hh (Text.toHex_injective h)), fun h => by rw [h]⟩

theorem filter_dropWhile {α : Type} {p q : α → Bool} (h : ∀ a, q a = true → p a = false)
    (l : List α) : (l.dropWhile q).filter p = l.filter p := by
  induction l with
  | nil => rfl
  | cons a l ih =>
    rw [List.dropWhile_cons]
    split
    · rw [ih, List.filter_cons_of_neg (by simp [h a ‹_›])]
    · rfl

/-- White space around a text is none of its digits. -/
theorem normalize_trim (text : String) :
    normalizeRecoveryCode (Text.trim text) = normalizeRecoveryCode text := by
  have hspace : ∀ c, Text.isWhitespace c = true → Text.isAsciiHexdigit c = false := by
    intro c hc
    have h0 : '0'.toNat = 48 := rfl
    have h9 : '9'.toNat = 57 := rfl
    have ha : 'a'.toNat = 97 := rfl
    have hf : 'f'.toNat = 102 := rfl
    have hA : 'A'.toNat = 65 := rfl
    have hF : 'F'.toNat = 70 := rfl
    simp only [Text.isWhitespace, Bool.or_eq_true, Bool.and_eq_true, decide_eq_true_eq,
      beq_iff_eq] at hc
    simp only [Text.isAsciiHexdigit, Text.isAsciiDigit, Bool.or_eq_false_iff, Bool.and_eq_false_iff,
      decide_eq_false_iff_not]
    omega
  unfold normalizeRecoveryCode Text.trim
  rw [String.toList_ofList, List.filter_reverse, filter_dropWhile hspace, List.filter_reverse,
    List.reverse_reverse, filter_dropWhile hspace]

/-- One element of a list without repetitions meets the test. -/
theorem filter_eq_singleton {α : Type} {p : α → Bool} {l : List α} {a : α} (hl : l.Nodup)
    (ha : a ∈ l) (hp : p a = true) (hone : ∀ b ∈ l, p b = true → b = a) : l.filter p = [a] := by
  induction l with
  | nil => cases ha
  | cons b l ih =>
    rw [List.nodup_cons] at hl
    rcases List.mem_cons.mp ha with rfl | ha
    · rw [List.filter_cons_of_pos hp, List.filter_eq_nil_iff.mpr fun b hb hpb => hl.1 ?_]
      rw [← hone b (List.mem_cons_of_mem _ hb) hpb]
      exact hb
    · rw [List.filter_cons_of_neg fun hpb => hl.1 ?_]
      · exact ih hl.2 ha fun c hc => hone c (List.mem_cons_of_mem _ hc)
      · rw [hone b List.mem_cons_self hpb]
        exact ha

/-- The codes a text spells. -/
theorem FactorLedger.Sound.spelled (h : l.Sound env) {text c : String}
    (hc : c ∈ l.older ++ l.current) (hsame : SameCode text c) :
    (l.older ++ l.current).filter (SameCode text ·) = [c] := by
  refine filter_eq_singleton h.distinct hc (by simpa using hsame) fun b hb hspelled => ?_
  obtain ⟨m, rfl⟩ := h.codes b hb
  obtain ⟨n, rfl⟩ := h.codes c hc
  have hspelled : SameCode text (recoveryCodeText env m) := by simpa using hspelled
  exact recoveryCodeText_of_sameCode (Eq.trans (Eq.symm hspelled) hsame)

theorem FactorLedger.Sound.spend (h : l.Sound env) {c : String} (hc : c ∈ l.current)
    (hnew : c ∉ l.accepted) :
    { l with accepted := l.accepted ++ [c] : FactorLedger }.Sound env where
  codes := h.codes
  distinct := h.distinct
  accepted b hb := by
    rcases List.mem_append.mp hb with hb | hb
    · exact h.accepted b hb
    · rw [List.mem_singleton.mp hb]
      exact List.mem_append_right _ hc
  once := by
    refine List.nodup_append.mpr ⟨h.once, List.nodup_singleton c, ?_⟩
    rintro b hb _ (_ | ⟨_, ⟨⟩⟩) rfl
    exact hnew hb

/-- A new set takes the place of the current one. -/
theorem FactorLedger.Sound.replace (h : l.Sound env) {codes : List String}
    (hcodes : ∀ c ∈ codes, ∃ n, c = recoveryCodeText env n)
    (hdistinct : (l.older ++ l.current ++ codes).Nodup) (secret : Option (List UInt8)) :
    (⟨secret, l.older ++ l.current, codes, l.accepted⟩ : FactorLedger).Sound env where
  codes c hc := (List.mem_append.mp hc).elim (h.codes c) (hcodes c)
  distinct := hdistinct
  accepted c hc := List.mem_append_left _ (h.accepted c hc)
  once := h.once

/-! ## The check -/

/-- What passes the check: a code of the authenticator, which uses nothing up, or a recovery code
of the current set that was not accepted before. -/
theorem Enrolled.check (hh : Function.Injective env.sha256) {secret : List UInt8}
    {state : SecondFactorState} {a verified : Account} {code : Option String} {now : DateTime}
    (he : Enrolled env l secret state) (hl : l.Sound env) (hsecret : l.secret = some secret)
    (ha : a.secondFactor = some state)
    (hv : verifySecondFactorForAccount env a code now = .ok verified) :
    ∃ text, code = some text ∧
      ((ValidTotp env secret now (Text.trim text) ∧ verified = a ∧
          l.accept env (some (code, now)) = l) ∨
        ∃ c ∈ l.current, c ∉ l.accepted ∧ SameCode text c ∧
          l.accept env (some (code, now)) = { l with accepted := l.accepted ++ [c] } ∧
          ∃ state', verified = { a with secondFactor := some state' } ∧
            Enrolled env { l with accepted := l.accepted ++ [c] } secret state') := by
  unfold verifySecondFactorForAccount at hv
  rw [ha] at hv
  dsimp only at hv
  split at hv
  · cases hv
  rename_i trimmed htrimmed
  obtain ⟨htrimmed, -⟩ := Option.filter_eq_some_iff.mp htrimmed
  obtain ⟨text, rfl, rfl⟩ := Option.map_eq_some_iff.mp htrimmed
  refine ⟨text, rfl, ?_⟩
  rw [he.secret] at hv
  dsimp only at hv
  have haccept : l.accept env (some (some text, now)) =
      if verifyTotp env secret (Text.trim text) now then l
      else { l with
        accepted := l.accepted ++ (l.older ++ l.current).filter (SameCode text ·) } := by
    unfold FactorLedger.accept
    rw [hsecret]
  rw [haccept]
  split at hv
  · rename_i htotp
    cases hv
    exact .inl ⟨validTotp_of_verify htotp, rfl, if_pos htotp⟩
  rename_i htotp
  split at hv
  · rename_i index hindex
    cases hv
    obtain ⟨hlt, hhash, -⟩ := List.findIdx?_eq_some_iff_getElem.mp hindex
    have hhash : state.recoveryCodeHashes[index] = recoveryHash env (Text.trim text) := by
      simpa [secureEq, recoveryHash] using hhash
    obtain ⟨c, hc, hnew, hcode⟩ := (he.hashes _).mp (List.getElem_mem hlt)
    have hsame : SameCode text c := by
      have := (recoveryHash_inj hh).mp (hhash.symm.trans hcode.symm)
      exact Eq.trans (normalize_trim text).symm this
    have hmem := List.mem_append_right l.older hc
    refine .inr ⟨c, hc, hnew, hsame, ?_, _, rfl, ?_⟩
    · rw [if_neg htotp, hl.spelled hmem hsame]
    · -- the hash of the code goes, the others stay
      have hperm := swapRemove_perm hlt
      rw [← he.distinct.erase_getElem index hlt] at hperm
      refine ⟨he.secret, hperm.nodup_iff.mpr (he.distinct.erase _), fun h => ?_⟩
      rw [hperm.mem_iff, he.distinct.mem_erase_iff, he.hashes, ← hcode]
      constructor
      · rintro ⟨hne, c', hc', hnew', rfl⟩
        refine ⟨c', hc', fun hmem' => ?_, rfl⟩
        rcases List.mem_append.mp hmem' with hmem' | hmem'
        · exact hnew' hmem'
        · exact hne (congrArg _ (List.mem_singleton.mp hmem'))
      · rintro ⟨c', hc', hnew', rfl⟩
        refine ⟨fun heq => hnew' ?_, c', hc', fun h => hnew' (List.mem_append_left _ h), rfl⟩
        obtain ⟨m, rfl⟩ := hl.codes c hmem
        obtain ⟨n, rfl⟩ := hl.codes c' (List.mem_append_right _ hc')
        rw [recoveryCodeText_of_sameCode ((recoveryHash_inj hh).mp heq)]
        simp
  · cases hv

/-! ## What an operation does to the ledger -/

theorem FactorLedger.accept_fields (l : FactorLedger) (p : Option (Option String × DateTime)) :
    l.accept env p = { l with accepted := (l.accept env p).accepted } := by
  unfold FactorLedger.accept
  repeat' split
  all_goals rfl

/-- The operation is about another account. -/
theorem FactorLedger.next_other (h : op.subject env w ≠ some u) : l.next env u w op = l := by
  have hcode : op.factorCode u w = none := by
    cases op <;> first
      | rfl
      | exact if_neg fun he => h he
      | exact if_neg fun he => h (congrArg some he)
  unfold FactorLedger.next
  rw [hcode]
  split <;> first | rfl | exact if_neg fun he => h (congrArg some he)

/-- What is checked is the account of the user. -/
theorem AccountStep.verified {a a' : Account} {p : Option String × DateTime}
    (h : AccountStep env w op u a a') (hp : op.factorCode u w = some p) :
    ∃ verified, verifySecondFactorForAccount env a p.1 p.2 = .ok verified := by
  cases h with
  | same hother =>
    cases op <;> first
      | cases hp
      | exact absurd ((if_neg fun he => hother he).symm.trans hp) nofun
      | exact absurd ((if_neg fun he => hother (congrArg some he)).symm.trans hp) nofun
  | loggedIn hlogin hverified =>
    cases (if_pos hlogin).symm.trans hp
    exact ⟨_, hverified⟩
  | disabled hverified | regenerated hverified =>
    cases (if_pos rfl).symm.trans hp
    exact ⟨_, hverified⟩
  | _ => cases hp

/-- Nothing is written about the second factor. -/
theorem Held.of_same (h : Held env u (w, l)) {a a' : Account} (ha : w.accounts.get u = some a)
    (ha' : w'.accounts.get u = some a') (hsame : a'.secondFactor = a.secondFactor) :
    Held env u (w', l) where
  enrolled secret hsecret := by
    obtain ⟨b, state, hb, hstate, he⟩ := h.enrolled secret hsecret
    cases ha.symm.trans hb
    exact ⟨a', state, ha', hsame.trans hstate, he⟩
  free hnone b hb := by
    cases ha'.symm.trans hb
    exact hsame.trans (h.free hnone a ha)
  sound := h.sound

/-- A factor that is enabled keeps what the ledger says, and one that is not needs no code. -/
theorem Held.present (hh : Function.Injective env.sha256) (h : Held env u (w, l))
    {a verified : Account} (ha : w.accounts.get u = some a) {code : Option String} {now : DateTime}
    (hv : verifySecondFactorForAccount env a code now = .ok verified)
    (ha' : w'.accounts.get u = some verified) :
    Held env u (w', l.accept env (some (code, now))) := by
  cases hsecret : l.secret with
  | none =>
    have hfree := h.free hsecret a ha
    obtain rfl : a = verified := by
      unfold verifySecondFactorForAccount at hv
      rw [hfree] at hv
      exact Except.ok.inj hv
    have hsame : l.accept env (some (code, now)) = l := by
      unfold FactorLedger.accept
      rw [hsecret]
      split <;> rfl
    rw [hsame]
    exact h.of_same ha ha' rfl
  | some secret =>
    obtain ⟨b, state, hb, hstate, he⟩ := h.enrolled secret hsecret
    cases ha.symm.trans hb
    obtain ⟨text, rfl, ⟨-, rfl, hsame⟩ | ⟨c, hc, hnew, -, haccept, state', rfl, he'⟩⟩ :=
      he.check hh h.sound hsecret hstate hv
    · rw [hsame]
      exact h.of_same ha ha' rfl
    · rw [haccept]
      refine ⟨fun secret' hsecret' => ?_, fun hnone => ?_, h.sound.spend hc hnew⟩
      · cases hsecret.symm.trans hsecret'
        exact ⟨_, state', ha', rfl, he'⟩
      · cases hsecret.symm.trans hnone

/-- A new set is kept by its hashes. -/
theorem Enrolled.new (hh : Function.Injective env.sha256) {codes : List String}
    (hcodes : ∀ c ∈ codes, ∃ n, c = recoveryCodeText env n) (hl : l.Sound env)
    (hdistinct : (l.older ++ l.current ++ codes).Nodup) {secret : List UInt8}
    {state : SecondFactorState} (hsecret : decryptSecret env state.encryptedSecret = .ok secret)
    (hstate : state.recoveryCodeHashes = codes.map (recoveryHash env))
    {kept : Option (List UInt8)} :
    Enrolled env ⟨kept, l.older ++ l.current, codes, l.accepted⟩ secret state := by
  obtain ⟨-, hcodes', hdisjoint⟩ := List.nodup_append.mp hdistinct
  refine ⟨hsecret, ?_, fun h => ?_⟩
  · rw [hstate]
    refine hcodes'.map_on fun c hc c' hc' he => ?_
    obtain ⟨m, rfl⟩ := hcodes c hc
    obtain ⟨n, rfl⟩ := hcodes c' hc'
    exact recoveryCodeText_of_sameCode ((recoveryHash_inj hh).mp he)
  · rw [hstate, List.mem_map]
    constructor
    · rintro ⟨c, hc, rfl⟩
      exact ⟨c, hc, fun hmem => hdisjoint c (hl.accepted c hmem) c hc rfl, rfl⟩
    · rintro ⟨c, hc, -, rfl⟩
      exact ⟨c, hc, rfl⟩

theorem recoveryCodes_texts {n : Nat} {c : String} (h : c ∈ recoveryCodes env n) :
    ∃ k, c = recoveryCodeText env k := by
  obtain ⟨i, -, rfl⟩ := List.mem_map.mp h
  exact ⟨n + i, rfl⟩

/-! ## One step -/

/-- An operation on an account that is there. -/
theorem Held.account (hh : Function.Injective env.sha256) (h : Held env u (w, l)) {a a' : Account}
    (ha : w.accounts.get u = some a) (ha' : w'.accounts.get u = some a')
    (hnew : l.NewCodes env u w op) (hs : AccountStep env w op u a a') :
    Held env u (w', l.next env u w op) := by
  cases hs with
  | same hother =>
    rw [FactorLedger.next_other hother]
    exact h.of_same ha ha' rfl
  | prepared | passwordChanged | passwordReset | connected | updated | deleted | suspension =>
    exact h.of_same ha ha' rfl
  | @loggedIn input code now _ _ verified hlogin hverified =>
    have hcode : (Op.loginWithSecondFactor input code now).factorCode u w = some (code, now) :=
      if_pos hlogin
    have hnext : l.next env u w (.loginWithSecondFactor input code now) =
        l.accept env (some (code, now)) := by
      unfold FactorLedger.next
      rw [hcode]
    rw [hnext]
    let checked := w.set .accounts (w.accounts.insert u verified)
    have hchecked : checked.accounts.get u = some verified := Map.get_insert_self ..
    exact (h.present hh ha hverified hchecked).of_same hchecked ha' rfl
  | @enabled _ code now _ pending secret hpending hsecret =>
    have hkept : w.pendingSecret env u = some secret := by
      simp [Store.pendingSecret, ha, hpending, hsecret, Except.toOption]
    have hnext : l.next env u w (.enableSecondFactor u code now) =
        ⟨some secret, l.older ++ l.current, recoveryCodes env w.nextRandom, l.accepted⟩ := by
      show (if u = u then _ else _) = _
      rw [if_pos rfl, hkept]
      rfl
    rw [hnext]
    refine ⟨fun secret' hsecret' => ?_, (fun hnone => by cases hnone),
      h.sound.replace (fun _ => recoveryCodes_texts) (hnew rfl) _⟩
    cases hsecret'
    exact ⟨_, _, ha', rfl, .new hh (fun _ => recoveryCodes_texts) h.sound (hnew rfl) hsecret rfl⟩
  | @disabled _ currentPassword code now _ verified hverified =>
    let checked := w.set .accounts (w.accounts.insert u verified)
    have hchecked : checked.accounts.get u = some verified := Map.get_insert_self ..
    have hp := h.present hh ha hverified hchecked
    have hnext : l.next env u w (.disableSecondFactor u currentPassword code now) =
        let l := l.accept env (some (some (Text.trim code), now))
        ⟨none, l.older ++ l.current, [], l.accepted⟩ := by
      unfold FactorLedger.next Op.factorCode
      simp only [if_pos]
    rw [hnext]
    refine ⟨(fun _ hsome => by cases hsome), fun _ b hb => ?_, hp.sound.replace
      (fun _ hc => absurd hc List.not_mem_nil) (by simpa using hp.sound.distinct) none⟩
    cases ha'.symm.trans hb
    rfl
  | @regenerated _ currentPassword code now _ verified state hverified hstate =>
    let checked := w.set .accounts (w.accounts.insert u verified)
    have hchecked : checked.accounts.get u = some verified := Map.get_insert_self ..
    have hp := h.present hh ha hverified hchecked
    have hfields : l.accept env (some (some (Text.trim code), now)) = _ := l.accept_fields _
    generalize haccept : l.accept env (some (some (Text.trim code), now)) = l' at hp hfields
    have hnext : l.next env u w (.regenerateRecoveryCodes u currentPassword code now) =
        ⟨l'.secret, l'.older ++ l'.current, recoveryCodes env w.nextRandom, l'.accepted⟩ := by
      unfold FactorLedger.next Op.factorCode
      simp only [if_pos, haccept]
    have hnew : (l'.older ++ l'.current ++ recoveryCodes env w.nextRandom).Nodup := by
      rw [hfields]
      exact hnew rfl
    rw [hnext]
    refine ⟨fun secret hsecret => ?_, fun hnone => ?_,
      hp.sound.replace (fun _ => recoveryCodes_texts) hnew _⟩
    · obtain ⟨b, state', hb, hstate', he⟩ := hp.enrolled secret hsecret
      cases hchecked.symm.trans hb
      cases hstate.symm.trans hstate'
      refine ⟨_, _, ha', rfl, .new hh (fun _ => recoveryCodes_texts) hp.sound hnew ?_ rfl⟩
      exact he.secret
    · cases hstate.symm.trans (hp.free hnone verified hchecked)

/-- **What the account keeps** follows the ledger. -/
theorem Held.step (hu : Function.Injective env.uuid) (hh : Function.Injective env.sha256)
    (hdrawn : AccountsDrawn env w) (h : Held env u (w, l)) (hnew : l.NewCodes env u w op)
    (hr : (op.run env).Runs w () w') : Held env u (w', l.next env u w op) := by
  by_cases hop : ∀ input now, op ≠ .register input now
  · obtain ⟨hstep, hnone⟩ := Op.accounts hr hop
    cases ha : w.accounts.get u with
    | some a =>
      obtain ⟨a', ha', hs⟩ := hstep u a ha
      exact h.account hh ha ha' hnew hs
    | none =>
      obtain ⟨hother, ha'⟩ := hnone u ha
      rw [FactorLedger.next_other hother]
      refine ⟨fun secret hsecret => ?_, fun _ b hb => ?_, h.sound⟩
      · obtain ⟨a, -, hsome, -⟩ := h.enrolled secret hsecret
        cases ha.symm.trans hsome
      · cases ha'.symm.trans hb
  · simp only [not_forall, not_not] at hop
    obtain ⟨input, now, rfl⟩ := hop
    obtain ⟨session, hr⟩ := Tx.runs_void.mp hr
    obtain ⟨hash, haccounts⟩ := (register_registers hr).accounts
    by_cases hself : u = env.uuid w.nextUuid
    · have ha : w.accounts.get u = none := by
        by_contra hsome
        obtain ⟨a, ha⟩ := Option.ne_none_iff_exists'.mp hsome
        obtain ⟨k, hk, he⟩ := hdrawn _ a ha
        have := hu (hself.symm.trans he)
        omega
      refine ⟨fun secret hsecret => ?_, fun _ b hb => ?_, h.sound⟩
      · obtain ⟨a, -, hsome, -⟩ := h.enrolled secret hsecret
        cases ha.symm.trans hsome
      · have hb : w'.accounts.get u = some b := hb
        rw [haccounts, hself, Map.get_insert_self] at hb
        cases hb
        rfl
    · have hget : w'.accounts.get u = w.accounts.get u := by
        rw [haccounts, Map.get_insert_ne hself]
      exact ⟨fun secret hsecret => hget ▸ h.enrolled secret hsecret,
        fun hnone a ha => h.free hnone a (hget ▸ ha), h.sound⟩

theorem held_inductive (hu : Function.Injective env.uuid) (hh : Function.Injective env.sha256) :
    (factorRuns env u).Inductive fun x => AccountsDrawn env x.1 ∧ Held env u x where
  init := by
    rintro ⟨w, l⟩ ⟨rfl, rfl⟩
    refine ⟨(accountsDrawn_inductive env).init _ rfl, nofun, fun _ a ha => ?_, ?_⟩
    · cases (Map.get_empty _).symm.trans ha
    · exact ⟨nofun, List.nodup_nil, nofun, List.nodup_nil⟩
  step := by
    rintro ⟨w, l⟩ op ⟨w', l'⟩ ⟨hdrawn, h⟩ ⟨hr, hnew, rfl⟩
    exact ⟨(accountsDrawn_inductive env).step w op w' hdrawn hr, h.step hu hh hdrawn hnew hr⟩

theorem FactorLedger.next_accepted :
    (l.next env u w op).accepted = (l.accept env (op.factorCode u w)).accepted := by
  unfold FactorLedger.next
  dsimp only
  repeat' split
  all_goals rfl

/-- An operation that shows a code shows one that is accepted. -/
theorem Held.shown (hh : Function.Injective env.sha256) (h : Held env u (w, l))
    {secret : List UInt8} (hsecret : l.secret = some secret) {code : Option String} {now : DateTime}
    (hr : (op.run env).Runs w () w') (hp : op.factorCode u w = some (code, now)) :
    ∃ text, code = some text ∧
      ((ValidTotp env secret now (Text.trim text) ∧ (l.next env u w op).accepted = l.accepted) ∨
        ∃ c ∈ l.current, c ∉ l.accepted ∧ SameCode text c ∧
          (l.next env u w op).accepted = l.accepted ++ [c]) := by
  have hop : ∀ input now, op ≠ .register input now := by
    rintro input now rfl
    cases hp
  obtain ⟨a, state, ha, hstate, he⟩ := h.enrolled secret hsecret
  obtain ⟨a', -, hs⟩ := (Op.accounts hr hop).1 u a ha
  obtain ⟨verified, hverified⟩ := hs.verified hp
  rw [FactorLedger.next_accepted, hp]
  obtain ⟨text, rfl, ⟨hvalid, -, hsame⟩ | ⟨c, hc, hnew, hcode, haccept, -⟩⟩ :=
    he.check hh h.sound hsecret hstate hverified
  · exact ⟨text, rfl, .inl ⟨hvalid, by rw [hsame]⟩⟩
  · exact ⟨text, rfl, .inr ⟨c, hc, hnew, hcode, by rw [haccept]⟩⟩

theorem enableSecondFactor_codes {actor : UserId} {code : String} {now : DateTime}
    {codes : List String} (h : (enableSecondFactor env actor code now).Runs w codes w') :
    codes = recoveryCodes env w.nextRandom := by
  unfold enableSecondFactor at h
  simp only [Tx.runs_get_bind, Tx.runs_okOr_bind, Tx.runs_ofExcept_bind, Tx.runs_failIf_bind,
    Tx.runs_bind (t := generateRecoveryCodes env), generateRecoveryCodes_runs, update_bind_runs,
    Tx.runs_pure] at h
  obtain ⟨_, -, _, -, _, -, -, _, _, ⟨rfl, rfl⟩, rfl, -⟩ := h
  rfl

theorem regenerateRecoveryCodes_codes {actor : UserId} {currentPassword code : String}
    {now : DateTime} {codes : List String}
    (h : (regenerateRecoveryCodes env actor currentPassword code now).Runs w codes w') :
    codes = recoveryCodes env w.nextRandom := by
  unfold regenerateRecoveryCodes at h
  simp only [Tx.runs_get_bind, Tx.runs_okOr_bind, Tx.runs_failIf_bind, Tx.runs_ofExcept_bind,
    Tx.runs_bind (t := generateRecoveryCodes env), generateRecoveryCodes_runs, update_bind_runs,
    Tx.runs_pure] at h
  obtain ⟨_, -, -, _, -, _, _, ⟨rfl, rfl⟩, _, -, rfl, -⟩ := h
  rfl

end

/-- **The second factor cannot be skipped, and recovery codes work once.** In every run in which
the codes generated are distinct, while a factor is enrolled a login of the user, like what turns
the factor off or replaces its codes, comes with a code of the enrolled secret, of the current step
or an adjacent one, or with a recovery code of the current set that was not accepted before and
counts as accepted from then on. No code is accepted twice, a text that spells a code of a set that
was replaced and is no code of the secret is refused, and what fails uses nothing up. The codes of
the ledger are those the user was shown. -/
theorem second_factor_holds (env : Env) (hu : Function.Injective env.uuid)
    (hh : Function.Injective env.sha256) (u : UserId) (x : World × FactorLedger)
    (hx : (factorRuns env u).Reachable x) :
    (∀ secret, x.2.secret = some secret → ∀ (op : Op) w' code now, (op.run env).Runs x.1 () w' →
      op.factorCode u x.1 = some (code, now) →
      ∃ text, code = some text ∧
        ((ValidTotp env secret now (Text.trim text) ∧
            (x.2.next env u x.1 op).accepted = x.2.accepted) ∨
          ∃ c ∈ x.2.current, c ∉ x.2.accepted ∧ SameCode text c ∧
            (x.2.next env u x.1 op).accepted = x.2.accepted ++ [c])) ∧
    x.2.accepted.Nodup ∧
    (∀ secret, x.2.secret = some secret → ∀ (op : Op) w' text now, ∀ c ∈ x.2.older,
      SameCode text c → op.factorCode u x.1 = some (some text, now) →
      ¬ ValidTotp env secret now (Text.trim text) → ¬ (op.run env).Runs x.1 () w') ∧
    (∀ (op : Op) e, ((op.run env).commit x.1).1 = .error e → ((op.run env).commit x.1).2 = x.1) ∧
    (∀ code now codes w', (enableSecondFactor env u code now).Runs x.1 codes w' →
      (x.2.next env u x.1 (.enableSecondFactor u code now)).current = codes) ∧
    ∀ currentPassword code now codes w',
      (regenerateRecoveryCodes env u currentPassword code now).Runs x.1 codes w' →
      (x.2.next env u x.1 (.regenerateRecoveryCodes u currentPassword code now)).current =
        codes := by
  obtain ⟨w, l⟩ := x
  obtain ⟨-, h⟩ := (held_inductive hu hh).reachable hx
  refine ⟨fun secret hsecret op w' code now hr hp => h.shown hh hsecret hr hp, h.sound.once, ?_, ?_,
    fun code now codes w' hr => ?_, fun currentPassword code now codes w' hr => ?_⟩
  · intro secret hsecret op w' text now c hc hcode hp hinvalid hr
    obtain ⟨_, ⟨⟩, ⟨hvalid, -⟩ | ⟨c', hc', -, hcode', -⟩⟩ := h.shown hh hsecret hr hp
    · exact hinvalid hvalid
    · -- a code of two sets
      obtain ⟨m, rfl⟩ := h.sound.codes c (List.mem_append_left _ hc)
      obtain ⟨n, rfl⟩ := h.sound.codes c' (List.mem_append_right _ hc')
      rw [recoveryCodeText_of_sameCode (Eq.trans (Eq.symm hcode) hcode')] at hc
      exact (List.nodup_append.mp h.sound.distinct).2.2 _ hc _ hc' rfl
  · intro op e herror
    obtain ⟨a, w', -, hcommit⟩ | ⟨e, hcommit⟩ := (op.run env).commit_cases w
    · rw [hcommit] at herror
      cases herror
    · rw [hcommit]
  · rw [enableSecondFactor_codes hr]
    unfold FactorLedger.next
    simp only [if_pos]
  · rw [regenerateRecoveryCodes_codes hr]
    unfold FactorLedger.next
    simp only [if_pos]

/-- Alice enables a second factor and logs in with the first of her recovery codes. -/
theorem second_factor_holds_alice : ∃ x w' secret text,
    (factorRuns Env.numbered 1).Reachable x ∧ x.2.secret = some secret ∧
    ((Op.loginWithSecondFactor ⟨"alice", "Passw0rd123", "phone", "ios", "1.0"⟩
      (some "0500 0000 0000 0000") 0).run Env.numbered).Runs x.1 () w' ∧
    some "0500 0000 0000 0000" = some text ∧
      ((ValidTotp Env.numbered secret 0 (Text.trim text) ∧
          (x.2.next Env.numbered 1 x.1 (.loginWithSecondFactor
            ⟨"alice", "Passw0rd123", "phone", "ios", "1.0"⟩
            (some "0500 0000 0000 0000") 0)).accepted = x.2.accepted) ∨
        ∃ c ∈ x.2.current, c ∉ x.2.accepted ∧ SameCode text c ∧
          (x.2.next Env.numbered 1 x.1 (.loginWithSecondFactor
            ⟨"alice", "Passw0rd123", "phone", "ios", "1.0"⟩
            (some "0500 0000 0000 0000") 0)).accepted = x.2.accepted ++ [c]) := by
  let login : Op := .loginWithSecondFactor ⟨"alice", "Passw0rd123", "phone", "ios", "1.0"⟩
    (some "0500 0000 0000 0000") 0
  let next (x : World × FactorLedger) (op : Op) : Option (World × FactorLedger) :=
    if (x.2.older ++ x.2.current ++ recoveryCodes Env.numbered x.1.nextRandom).Nodup then
      (op.run Env.numbered x.1).toOption.map fun r => (r.2, x.2.next Env.numbered 1 x.1 op)
    else none
  have hnext : ∀ x, ∀ op ∈ [Op.register alice 0, .beginSecondFactorSetup 1 0,
      .enableSecondFactor 1 "331648" 0], ∀ x', next x op = some x' →
      (factorRuns Env.numbered 1).step x op x' := by
    intro x op _ x' h
    dsimp only [next] at h
    split at h
    · obtain ⟨r, hr, rfl⟩ := Option.map_eq_some_iff.mp h
      refine ⟨toOption_eq_some.mp hr, ?_, rfl⟩
      unfold FactorLedger.NewCodes
      split
      · exact fun _ => ‹_›
      · exact fun _ => ‹_›
      · trivial
    · cases h
  obtain ⟨x, hx, hp⟩ := LTS.reaches_of_exec (M := factorRuns Env.numbered 1)
    (s := (World.init, {})) ⟨rfl, rfl⟩ _ hnext
    (fun x => x.2.secret.isSome && (login.run Env.numbered x.1).toOption.isSome &&
      decide (x.1.loginUser ⟨"alice", "Passw0rd123", "phone", "ios", "1.0"⟩ = some 1))
    (by decide +kernel)
  simp only [Bool.and_eq_true, Option.isSome_iff_exists, decide_eq_true_eq] at hp
  obtain ⟨⟨⟨secret, hsecret⟩, r, hr⟩, hlogin⟩ := hp
  obtain ⟨text, he, h⟩ := (second_factor_holds Env.numbered Env.numbered_injective (fun _ _ h => h)
    1 x hx).1 secret hsecret login r.2 _ 0
    (toOption_eq_some.mp hr) (if_pos hlogin)
  exact ⟨x, r.2, secret, text, hx, hsecret, toOption_eq_some.mp hr, he, h⟩

end IamRust
