import IamRust.L1Domain.Basic

/-!
# Validation of account fields and message texts

mirrors crates/domain/src/validation.rs. The two regular expressions are
spelled out: both are anchored, and the case-insensitive Unicode mode of the
email one adds the two non-ASCII letters that fold to `s` and `k`.
-/
namespace IamRust

open Core

def maxMessageChars : Nat := 10000

/-- `(?i)[a-z0-9]`: U+017F folds to `s`, U+212A to `k`. -/
def isEmailAlphanumeric (c : Char) : Bool :=
  Text.isAsciiAlphanumeric c || c.toNat == 0x17F || c.toNat == 0x212A

/-- The other characters of the local part, as code points. -/
def emailLocalSymbols : List Nat :=
  [0x2E, 0x21, 0x23, 0x24, 0x25, 0x26, 0x27, 0x2A, 0x2B, 0x2F, 0x3D, 0x3F, 0x5E, 0x5F, 0x60, 0x7B,
    0x7C, 0x7D, 0x7E, 0x2D]

def isEmailLocal (c : Char) : Bool := isEmailAlphanumeric c || emailLocalSymbols.contains c.toNat

/-- One label of the domain: 1 to 63 letters, digits and inner hyphens. -/
def isEmailLabel (l : List Char) : Bool :=
  decide (1 ≤ l.length ∧ l.length ≤ 63) && l.all (fun c => isEmailAlphanumeric c || c == '-') &&
    l.head?.any isEmailAlphanumeric && l.getLast?.any isEmailAlphanumeric

/-- `EMAIL_RE`. -/
def matchesEmail (value : String) : Bool :=
  match Text.split '@' value.toList with
  | [localPart, domain] =>
    let labels := Text.split '.' domain
    !localPart.isEmpty && localPart.all isEmailLocal && decide (2 ≤ labels.length) &&
      labels.all isEmailLabel
  | _ => false

/-- mirrors crates/domain/src/validation.rs:21-29 -/
def validateEmail (value : String) : Except DomainError Unit :=
  if Text.byteLen value > 254 ∨ matchesEmail value = false then
    .error (.validation "email" "invalid_email")
  else .ok ()

/-- mirrors crates/domain/src/validation.rs:31-40 -/
def validateUsername (value : String) : Except DomainError Unit :=
  let count := value.length
  if ¬ (3 ≤ count ∧ count ≤ 32) ∨
      value.toList.all (fun c => Text.isAsciiAlphanumeric c || c == '_') = false then
    .error (.validation "username" "invalid_username")
  else .ok ()

/-- `isUppercase` and `isLowercase` are the Unicode properties of `char`.
mirrors crates/domain/src/validation.rs:42-54 -/
def validatePassword (isUppercase isLowercase : Char → Bool) (value : String) :
    Except DomainError Unit :=
  let count := value.length
  let strongEnough := value.toList.any isUppercase && value.toList.any isLowercase &&
    value.toList.any Text.isAsciiDigit
  if ¬ (10 ≤ count ∧ count ≤ 128) ∨ strongEnough = false then
    .error (.validation "password" "weak_password")
  else .ok ()

/-- mirrors crates/domain/src/validation.rs:56-64 -/
def validateMessageText (value : String) : Except DomainError Unit :=
  if Text.isBlank value then .error .emptyMessage
  else if value.length > maxMessageChars then .error .messageTooLarge
  else .ok ()

end IamRust
