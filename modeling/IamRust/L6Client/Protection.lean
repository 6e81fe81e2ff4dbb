import IamRust.L1Domain.Basic

/-!
# Protected texts

`protect` and `unprotect` of the local cache. A protected text is marked by its
prefix `enc:v1:`, and nothing keeps a text of the user's from starting with it.

* `unprotect_clear`: a text without the prefix is read as it is.
* `Cipher.unprotect_protect`: what was encrypted is read under the same key.
* `Cipher.unprotect_shorter`: what is read from a text with the prefix is
  shorter than it.
-/
namespace IamRust

open Core

/-- The 12 bytes drawn for an encryption. -/
def Nonce : Type := { bytes : List UInt8 // bytes.length = 12 }

/-- AES-256-GCM (aes-gcm) and unpadded URL-safe base64 (data-encoding), as documented. The longest
text AES-GCM takes has 2^36 bytes, and its tag has 16. -/
structure Cipher (κ : Type) where
  encrypt : κ → List UInt8 → List UInt8 → Option (List UInt8)
  decrypt : κ → List UInt8 → List UInt8 → Option (List UInt8)
  encode : List UInt8 → String
  decode : String → Option (List UInt8)
  encrypt_isSome : ∀ k n p, (encrypt k n p).isSome = true ↔ p.length ≤ 2 ^ 36
  encrypt_length : ∀ k n p c, encrypt k n p = some c → c.length = p.length + 16
  decrypt_encrypt : ∀ k n p c, encrypt k n p = some c → decrypt k n c = some p
  decrypt_length : ∀ k n c p, decrypt k n c = some p → c.length = p.length + 16
  decode_encode : ∀ b, decode (encode b) = some b
  decode_length : ∀ s b, decode s = some b → b.length ≤ Text.byteLen s

/-- `ENCRYPTED_PREFIX`. -/
def encryptedPrefix : String := "enc:v1:"

/-- `value.starts_with(ENCRYPTED_PREFIX)`. -/
def marked (value : String) : Bool := Text.startsWith value encryptedPrefix

/-- `value.strip_prefix(ENCRYPTED_PREFIX)`. -/
def stripMark (value : String) : Option String :=
  if marked value then some (String.ofList (value.toList.drop encryptedPrefix.length)) else none

/-- `String::from_utf8`. -/
def fromUtf8 (bytes : List UInt8) : Option String := String.fromUTF8? bytes.toByteArray

section
variable {κ : Type} (cipher : Cipher κ)

/-- mirrors crates/client-core/src/lib.rs:1077-1099 -/
def protect (value : String) (key : Option κ) (nonce : Nonce) : Except String String :=
  match key with
  | none => .ok value
  | some key =>
    if marked value then .ok value
    else
      match cipher.encrypt key nonce.val (Text.bytes value) with
      | none => .error "failed to encrypt local content"
      | some ciphertext => .ok (encryptedPrefix ++ cipher.encode (nonce.val ++ ciphertext))

/-- mirrors crates/client-core/src/lib.rs:1101-1124 -/
def unprotect (value : String) (key : Option κ) : Except String String :=
  match stripMark value with
  | none => .ok value
  | some encoded =>
    match key with
    | none => .error "local cache is encrypted but its key is unavailable"
    | some key =>
      match cipher.decode encoded with
      | none => .error "encrypted local content is invalid"
      | some payload =>
        if payload.length < 28 then .error "encrypted local content is invalid"
        else
          match cipher.decrypt key (payload.take 12) (payload.drop 12) with
          | none => .error "failed to decrypt local content"
          | some plaintext =>
            match fromUtf8 plaintext with
            | none => .error "decrypted local content is invalid"
            | some text => .ok text

/-- `protect(v, k)` is read back as `v`, and with a key it is not `v`. -/
def Protects (v : String) (key : Option κ) (nonce : Nonce) : Prop :=
  ∃ s, protect cipher v key nonce = .ok s ∧ unprotect cipher s key = .ok v ∧
    (key.isSome = true → s ≠ v)

end

/-! ## The mark -/

theorem marked_append (s : String) : marked (encryptedPrefix ++ s) = true := by
  simp [marked, Text.startsWith, List.isPrefixOf_iff_prefix]

@[simp] theorem stripMark_append (s : String) : stripMark (encryptedPrefix ++ s) = some s := by
  have hdrop : (encryptedPrefix.toList ++ s.toList).drop encryptedPrefix.length = s.toList :=
    List.drop_left' rfl
  rw [stripMark, if_pos (marked_append s), String.toList_append, hdrop, String.ofList_toList]

theorem stripMark_of_clear {v : String} (h : marked v = false) : stripMark v = none := by
  simp [stripMark, h]

/-- The mark takes seven bytes. -/
theorem byteLen_stripMark {v s : String} (h : stripMark v = some s) :
    Text.byteLen v = 7 + Text.byteLen s := by
  unfold stripMark at h
  split at h
  · rename_i hm
    simp only [marked, Text.startsWith, List.isPrefixOf_iff_prefix] at hm
    obtain ⟨rest, hrest⟩ := hm
    simp only [Option.some.injEq, ← hrest] at h
    have hv : v = encryptedPrefix ++ String.ofList rest := by
      rw [← String.ofList_toList (s := v), ← hrest, String.ofList_append, String.ofList_toList]
    have hs : s = String.ofList rest := by
      rw [← h]
      rfl
    rw [hv, hs, Text.byteLen, Text.byteLen, String.utf8ByteSize_append]
    rfl
  · cases h

/-! ## Bytes -/

theorem fromUtf8_bytes (s : String) : fromUtf8 (Text.bytes s) = some s := by
  unfold fromUtf8 String.fromUTF8?
  rw [Text.toByteArray_bytes, dif_pos s.isValidUTF8]
  rfl

theorem byteLen_fromUtf8 {bytes : List UInt8} {s : String} (h : fromUtf8 bytes = some s) :
    Text.byteLen s = bytes.length := by
  unfold fromUtf8 String.fromUTF8? at h
  split at h
  · cases h
    rw [← List.size_toByteArray]
    rfl
  · cases h

/-! ## Both ways -/

namespace Cipher

variable {κ : Type} (cipher : Cipher κ) {v s : String} {key : Option κ} {nonce : Nonce}

theorem unprotect_clear (key : Option κ) (h : marked v = false) :
    unprotect cipher v key = .ok v := by
  rw [unprotect, stripMark_of_clear h]

/-- Without the mark, what is written under a key is the marked ciphertext. -/
theorem protect_some (k : κ) (nonce : Nonce) (h : marked v = false)
    (hlen : Text.byteLen v ≤ 2 ^ 36) :
    ∃ c, cipher.encrypt k nonce.val (Text.bytes v) = some c ∧
      protect cipher v (some k) nonce =
        .ok (encryptedPrefix ++ cipher.encode (nonce.val ++ c)) := by
  have hsome := (cipher.encrypt_isSome k nonce.val (Text.bytes v)).mpr (by rwa [Text.length_bytes])
  obtain ⟨c, hc⟩ := Option.isSome_iff_exists.mp hsome
  exact ⟨c, hc, by simp [protect, h, hc]⟩

/-- What was encrypted is read under the same key. -/
theorem unprotect_encrypted {k : κ} {c : List UInt8}
    (hc : cipher.encrypt k nonce.val (Text.bytes v) = some c) :
    unprotect cipher (encryptedPrefix ++ cipher.encode (nonce.val ++ c)) (some k) = .ok v := by
  have hlen := cipher.encrypt_length _ _ _ _ hc
  have hnonce := nonce.property
  have htake : (nonce.val ++ c).take 12 = nonce.val := List.take_left' hnonce
  have hdrop : (nonce.val ++ c).drop 12 = c := List.drop_left' hnonce
  have hlong : ¬ (nonce.val ++ c).length < 28 := by
    rw [List.length_append]
    omega
  simp only [unprotect, stripMark_append, cipher.decode_encode, htake, hdrop,
    cipher.decrypt_encrypt _ _ _ _ hc, fromUtf8_bytes, if_neg hlong]

/-- What is read from a marked text is shorter than it. -/
theorem unprotect_shorter (h : marked v = true) (hs : unprotect cipher v key = .ok s) :
    Text.byteLen s < Text.byteLen v := by
  unfold unprotect at hs
  split at hs
  · rename_i hstrip
    simp [stripMark, h] at hstrip
  · rename_i encoded hstrip
    have hlen := byteLen_stripMark hstrip
    split at hs
    · cases hs
    · split at hs
      · cases hs
      · rename_i payload hpayload
        have hpay := cipher.decode_length _ _ hpayload
        split at hs
        · cases hs
        · rename_i hlong
          split at hs
          · cases hs
          · rename_i plaintext hplain
            have htag := cipher.decrypt_length _ _ _ _ hplain
            rw [List.length_drop] at htag
            split at hs
            · cases hs
            · rename_i text htext
              cases hs
              have := byteLen_fromUtf8 htext
              omega

/-- What an unmarked text became is read back as the text. -/
theorem unprotect_protect (h : marked v = false) (hp : protect cipher v key nonce = .ok s) :
    unprotect cipher s key = .ok v := by
  cases key with
  | none =>
    cases hp
    exact cipher.unprotect_clear none h
  | some k =>
    simp only [protect, h, Bool.false_eq_true, if_false] at hp
    split at hp
    · cases hp
    · rename_i c hc
      cases hp
      exact cipher.unprotect_encrypted hc

/-- What the cipher takes is not too long for it. -/
theorem protect_fits {k : κ} (h : marked v = false) (hp : protect cipher v (some k) nonce = .ok s) :
    Text.byteLen v ≤ 2 ^ 36 := by
  rw [← Text.length_bytes, ← cipher.encrypt_isSome k nonce.val]
  cases hc : cipher.encrypt k nonce.val (Text.bytes v) with
  | none => simp [protect, h, hc] at hp
  | some c => rfl

/-- A marked text stays as it is, and is not read back. -/
theorem protect_marked (h : marked v = true) : protect cipher v key nonce = .ok v := by
  cases key <;> simp [protect, h]

theorem unprotect_marked (h : marked v = true) : unprotect cipher v key ≠ .ok v := fun hu =>
  absurd (cipher.unprotect_shorter h hu) (Nat.lt_irrefl _)

/-- A text is protected and read back exactly if it does not start with the mark, and, under a
key, is not too long for the cipher. -/
theorem protects_iff (v : String) (key : Option κ) (nonce : Nonce) :
    Protects cipher v key nonce ↔
      marked v = false ∧ (key.isSome = true → Text.byteLen v ≤ 2 ^ 36) := by
  constructor
  · rintro ⟨s, hp, hu, -⟩
    have hclear : marked v = false := by
      by_contra hm
      have hm : marked v = true := by simpa using hm
      rw [cipher.protect_marked hm] at hp
      cases hp
      exact cipher.unprotect_marked hm hu
    refine ⟨hclear, fun hk => ?_⟩
    obtain ⟨k, rfl⟩ := Option.isSome_iff_exists.mp hk
    exact cipher.protect_fits hclear hp
  · rintro ⟨hclear, hlen⟩
    cases key with
    | none => exact ⟨v, rfl, cipher.unprotect_clear none hclear, nofun⟩
    | some k =>
      obtain ⟨c, hc, hp⟩ := cipher.protect_some k nonce hclear (hlen rfl)
      refine ⟨_, hp, cipher.unprotect_encrypted hc, fun _ heq => ?_⟩
      rw [← heq, marked_append] at hclear
      cases hclear

end Cipher

/-! ## A cipher -/

/-- The text with the key as its tag, in hexadecimal digits. -/
noncomputable def Cipher.tagged : Cipher Nat where
  encrypt k _ p :=
    if p.length ≤ 2 ^ 36 then some (p ++ List.replicate 16 (UInt8.ofNat k)) else none
  decrypt k _ c :=
    if c.drop (c.length - 16) = List.replicate 16 (UInt8.ofNat k) then
      some (c.take (c.length - 16)) else none
  encode := Text.toHex
  decode := Function.partialInv Text.toHex
  encrypt_isSome k n p := by
    by_cases hp : p.length ≤ 2 ^ 36
    · exact iff_of_true (by rw [if_pos hp]; rfl) hp
    · exact iff_of_false (by rw [if_neg hp]; exact Bool.false_ne_true) hp
  encrypt_length k n p c h := by
    split at h
    · cases h
      simp
    · cases h
  decrypt_encrypt k n p c h := by
    split at h
    · cases h
      simp
    · cases h
  decrypt_length k n c p h := by
    split at h
    · rename_i hc
      cases h
      have hlen := congrArg List.length hc
      rw [List.length_drop, List.length_replicate] at hlen
      rw [List.length_take]
      omega
    · cases h
  decode_encode b := Function.partialInv_left Text.toHex_injective b
  decode_length s b h := by
    rw [← (Text.toHex_injective.isPartialInv b s).mp h]
    refine Nat.le_trans ?_ (Text.length_le_byteLen _)
    rw [Text.toHex, String.toList_ofList]
    clear h
    induction b with
    | nil => simp
    | cons x b ih =>
      rw [List.flatMap_cons, List.length_append, Text.length_hexDigits, List.length_cons]
      omega

end IamRust
