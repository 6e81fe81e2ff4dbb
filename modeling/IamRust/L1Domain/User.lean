import IamRust.L1Domain.Basic

/-!
# User profiles

mirrors crates/domain/src/user.rs
-/
namespace IamRust

open Core

inductive Presence where
  | online | away | busy | invisible | offline
  deriving DecidableEq, Repr

inductive ProfileVisibility where
  | everyone | friends | nobody
  deriving DecidableEq, Repr

structure ProfilePrivacySettings where
  genderVisibility : ProfileVisibility
  birthdayVisibility : ProfileVisibility
  regionVisibility : ProfileVisibility
  presenceVisibility : ProfileVisibility
  readReceiptsEnabled : Bool
  deriving DecidableEq, Repr

/-- mirrors crates/domain/src/user.rs:36-46 -/
def ProfilePrivacySettings.default : ProfilePrivacySettings where
  genderVisibility := .friends
  birthdayVisibility := .friends
  regionVisibility := .friends
  presenceVisibility := .friends
  readReceiptsEnabled := true

/-- A parsed URL, as its text. -/
abbrev Url := String

structure UserProfile where
  id : UserId
  username : String
  nickname : String
  avatarUrl : Option Url
  avatarAttachmentId : Option AttachmentId
  signature : String
  gender : Option String
  birthday : Option NaiveDate
  region : Option String
  presence : Presence
  lastSeenAt : Option DateTime
  deriving DecidableEq, Repr

structure UserProfileUpdate where
  nickname : String
  signature : String
  avatarUrl : Option Url
  avatarAttachmentId : Option AttachmentId
  gender : Option String
  birthday : Option NaiveDate
  region : Option String
  presence : Presence
  deriving DecidableEq, Repr

/-- mirrors crates/domain/src/user.rs:127-143 -/
def UserProfile.normalizeOptional (value : Option String) (maxLength : Nat) (field : String) :
    Except DomainError (Option String) :=
  let value := value.map Text.trim
  if value.any (fun v => decide (v.length > maxLength)) then
    .error (.validation field "invalid_length")
  else .ok (value.filter fun v => !v.isEmpty)

/-- `today` is `Utc::now().date_naive()`.
mirrors crates/domain/src/user.rs:80-124 -/
def UserProfile.updatePublicFields (profile : UserProfile) (update : UserProfileUpdate)
    (today : NaiveDate) : Except DomainError UserProfile := do
  let nicknameCount := (Text.trim update.nickname).length
  if ¬ (1 ≤ nicknameCount ∧ nicknameCount ≤ 48) then
    .error (.validation "nickname" "invalid_length")
  else if update.signature.length > 160 then
    .error (.validation "signature" "invalid_length")
  else
    let gender ← UserProfile.normalizeOptional update.gender 32 "gender"
    let region ← UserProfile.normalizeOptional update.region 96 "region"
    if update.birthday.any (fun date => decide (date > today)) then
      .error (.validation "birthday" "future_date")
    else
      .ok { profile with
        nickname := Text.trim update.nickname
        signature := update.signature
        avatarUrl := update.avatarUrl
        avatarAttachmentId := update.avatarAttachmentId
        gender := gender
        birthday := update.birthday
        region := region
        presence := update.presence }

end IamRust
