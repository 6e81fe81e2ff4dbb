import IamRust.L0Core.Text

/-!
# Identifiers, time and errors

Identifiers are UUID values; the code's newtypes (`UserId`, `MessageId`, ...)
are transparent here. Times are nanoseconds since the Unix epoch, UTC.
-/
namespace IamRust

/-- A UUID as the number its 128 bits spell.
mirrors crates/domain/src/id.rs -/
abbrev Uuid := Nat

abbrev UserId := Uuid
abbrev DeviceId := Uuid
abbrev ConversationId := Uuid
abbrev GroupId := Uuid
abbrev MessageId := Uuid
abbrev AttachmentId := Uuid
abbrev FriendRequestId := Uuid

/-- `Display`: 8-4-4-4-12 hexadecimal digits. -/
def Uuid.toString (u : Uuid) : String :=
  let d := Core.Text.hexDigits 32 u
  String.ofList (d.take 8 ++ ['-'] ++ (d.drop 8).take 4 ++ ['-'] ++ (d.drop 12).take 4 ++ ['-'] ++
    (d.drop 16).take 4 ++ ['-'] ++ d.drop 20)

@[simp] theorem Uuid.length_toString (u : Uuid) : (Uuid.toString u).toList.length = 36 := by
  simp [Uuid.toString]

theorem drop_of_pieces {d d' : List Char} {k n : Nat}
    (hpiece : (d.drop k).take n = (d'.drop k).take n) (hrest : d.drop (k + n) = d'.drop (k + n)) :
    d.drop k = d'.drop k := by
  rw [← List.take_append_drop n (d.drop k), ← List.take_append_drop n (d'.drop k), hpiece,
    List.drop_drop, List.drop_drop, hrest]

/-- The 128 bits are read back from the text. -/
theorem Uuid.toString_inj {u v : Uuid} (hu : u < 2 ^ 128) (hv : v < 2 ^ 128)
    (h : Uuid.toString u = Uuid.toString v) : u = v := by
  refine @Core.Text.hexDigits_inj 32 u v hu hv ?_
  simp only [Uuid.toString] at h
  replace h := String.ofList_injective h
  obtain ⟨h, h₂₀⟩ := List.append_inj' h (by simp)
  obtain ⟨h, -⟩ := List.append_inj' h rfl
  obtain ⟨h, h₁₆⟩ := List.append_inj' h (by simp)
  obtain ⟨h, -⟩ := List.append_inj' h rfl
  obtain ⟨h, h₁₂⟩ := List.append_inj' h (by simp)
  obtain ⟨h, -⟩ := List.append_inj' h rfl
  obtain ⟨h, h₈⟩ := List.append_inj' h (by simp)
  obtain ⟨h₀, -⟩ := List.append_inj' h rfl
  exact drop_of_pieces (k := 0) (n := 8) h₀ (drop_of_pieces h₈ (drop_of_pieces h₁₂
    (drop_of_pieces h₁₆ h₂₀)))

/-- `to_string().replace('-', "")`. -/
def Uuid.simple (u : Uuid) : String := String.ofList (Core.Text.hexDigits 32 u)

abbrev DateTime := Int
abbrev Duration := Int

namespace Duration

def seconds (n : Int) : Duration := n * 1000000000
def minutes (n : Int) : Duration := seconds (60 * n)
def days (n : Int) : Duration := minutes (1440 * n)

end Duration

/-- A calendar day, counted from the Unix epoch. -/
abbrev NaiveDate := Int

/-- `date_naive()`. -/
def DateTime.dateNaive (t : DateTime) : NaiveDate := t.fdiv (Duration.days 1)

/-- `u64::MAX`. -/
def u64Max : Nat := 2 ^ 64 - 1

/-- `n + 1` on `u64` in a release build (no overflow checks). -/
def wrappingSucc (n : Nat) : Nat := (n + 1) % 2 ^ 64

/-- `n.saturating_add(1)` on `u64`. -/
def saturatingSucc (n : Nat) : Nat := min (n + 1) u64Max

theorem wrappingSucc_of_lt {n : Nat} (h : n < u64Max) : wrappingSucc n = n + 1 := by
  unfold u64Max at h
  exact Nat.mod_eq_of_lt (by omega)

theorem saturatingSucc_of_lt {n : Nat} (h : n < u64Max) : saturatingSucc n = n + 1 := by
  unfold saturatingSucc; omega

/-- mirrors crates/domain/src/error.rs:3-28 -/
inductive DomainError where
  | validation (field reason : String)
  | forbidden
  | notFound
  | conflict
  | invalidTransition (src dst : String)
  | selfTarget
  | staleCursor
  | messageTooLarge
  | emptyMessage
  deriving DecidableEq, Repr

/-- mirrors crates/application/src/service.rs:121-145 -/
inductive ApplicationError where
  | domain (e : DomainError)
  | accountConflict
  | invalidCredentials
  | secondFactorRequired
  | invalidSecondFactor
  | unauthorized
  | sessionExpired
  | refreshTokenReuse
  | notFound
  | conflict
  | storage
  deriving DecidableEq, Repr

/-- `DomainError::Validation { field, reason }.into()`. -/
def invalid (field reason : String) : ApplicationError := .domain (.validation field reason)

/-- `DomainError::Forbidden.into()`. -/
def forbidden : ApplicationError := .domain .forbidden

/-- `?` on a domain result. -/
def liftDomain {α : Type} (r : Except DomainError α) : Except ApplicationError α :=
  r.mapError .domain

theorem liftDomain_ok {α : Type} {r : Except DomainError α} {a : α} :
    liftDomain r = .ok a ↔ r = .ok a := by
  cases r with
  | error e =>
    show Except.error (ApplicationError.domain e) = .ok a ↔ Except.error e = .ok a
    simp
  | ok b =>
    show Except.ok b = .ok a ↔ Except.ok b = .ok a
    simp

end IamRust
