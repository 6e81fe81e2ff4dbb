import IamRust.L0Core.Interleave
import IamRust.L4Properties.Families
import IamRust.L4Properties.Suspension

/-!
# The session of the client

The tokens of a session are in memory and in the credential store.
`authorized_json` exchanges them when a request is answered 401, `restore` when
the client starts, both behind `refresh_gate`; `logout` gives them up without
it. Calls run side by side, one atomic step at a time: a lock, a request, an
access to the credential store. A request or its answer may be lost.

`refreshed` lists the access tokens for whose sake a session was refreshed. No
step looks at it.
-/
namespace IamRust

open Core

/-! ## The server -/

/-- What is answered with 401.
mirrors apps/server/src/error.rs:75-105 -/
def ApplicationError.isUnauthorized : ApplicationError → Bool
  | .invalidCredentials | .secondFactorRequired | .invalidSecondFactor | .unauthorized
  | .sessionExpired | .refreshTokenReuse => true
  | _ => false

/-- A transaction; one that fails changes nothing. -/
def Ledger.commit (env : Env) (s : Ledger) (op : Op) : Ledger :=
  match (op.session env).commit s.world with
  | (answer, world) => ⟨world, s.grants ++ granted env world (answer.toOption.getD none)⟩

/-- `POST /api/v1/auth/refresh`.
mirrors apps/server/src/api.rs:924-933 -/
def Ledger.refresh (env : Env) (s : Ledger) (refreshToken : String) (now : DateTime) :
    Except ApplicationError AuthenticatedSession × Ledger :=
  match (IamRust.refresh env refreshToken now).commit s.world with
  | (answer, world) =>
    (answer.bind id, ⟨world, s.grants ++ granted env world (answer.bind id).toOption⟩)

/-! ## The calls -/

/-- mirrors apps/desktop/src/api.rs:43-47 -/
structure SessionTokens where
  access : Option String
  refresh : Option String
  deriving DecidableEq

def SessionTokens.default : SessionTokens := ⟨none, none⟩

def AuthenticatedSession.tokens (session : AuthenticatedSession) : SessionTokens :=
  ⟨some session.accessToken, some session.refreshToken⟩

/-- What the handler of a request does for the user of the session: a transaction, or it reads. -/
abbrev ApiRequest := UserId → DateTime → Option Op

inductive ApiCall where
  | authorizedJson (request : ApiRequest)
  | restore
  | logout

/-- `gate`: whether `refresh_gate` is locked. -/
structure ApiState where
  ledger : Ledger
  session : SessionTokens
  credential : Option String
  gate : Bool
  refreshed : List String

/-- The call that refreshes the session. -/
inductive Refresher where
  | authorizedJson (access : String) (request : ApiRequest)
  | restore

def Refresher.access : Refresher → Option String
  | .authorizedJson access _ => some access
  | .restore => none

/-- Where a call is. A request is `retry`ed at most once, with the gate locked; `dropping` and
`clearing` are the two steps of `clear_session`. -/
inductive ApiTask where
  | idle
  | requesting (retry : Bool) (access : String) (request : ApiRequest)
  | admitted (retry : Bool) (access : String) (request : ApiRequest) (userId : UserId)
  | refused (access : String) (request : ApiRequest)
  | comparing (access : String) (request : ApiRequest)
  | retrying (request : ApiRequest)
  | loaded (refresh : String)
  | restoring
  | refreshing (call : Refresher)
  | posting (call : Refresher) (refreshToken : String)
  | answered (call : Refresher) (session : AuthenticatedSession)
  | storing (call : Refresher) (session : AuthenticatedSession)
  | loggingOut (refreshToken : String)
  | dropping (logout : Bool)
  | clearing (logout : Bool)
  | done (logout : Bool)

/-- A call's own step: `ok` says whether the credential store works. A request is answered, or it or
its answer is lost. Of the others: a transaction of the server. -/
inductive ApiStep where
  | next (ok : Bool)
  | answer (now : DateTime)
  | lose
  | server (op : Op)

inductive ApiParty (ι : Type) where
  | call (i : ι)
  | others
  deriving DecidableEq

namespace ApiState

def lock (s : ApiState) (t : ApiTask) : Option (ApiState × ApiTask) :=
  if s.gate then none else some ({ s with gate := true }, t)

def unlock (s : ApiState) : ApiState := { s with gate := false }

/-- Behind an answer: a retried request has the gate locked. -/
def finish (s : ApiState) (retry : Bool) : ApiState := if retry then s.unlock else s

end ApiState

namespace ApiTask

/-- Behind an answer with 401. -/
def refuse (retry : Bool) (access : String) (request : ApiRequest) : ApiTask :=
  if retry then .done false else .refused access request

/-- The steps a call takes by itself.
mirrors apps/desktop/src/api.rs:547-561, 1067-1152 -/
def next (call : ApiCall) (s : ApiState) (ok : Bool) : ApiTask → Option (ApiState × ApiTask)
  | .idle =>
    match call with
    | .authorizedJson request =>
      match s.session.access with
      | none => some (s, .done false)
      | some access => some (s, .requesting false access request)
    | .restore =>
      match ok, s.credential with
      | true, some refresh => some (s, .loaded refresh)
      | _, _ => some (s, .done false)
    | .logout =>
      match s.session.refresh with
      | none => some (s, .dropping true)
      | some refreshToken => some (s, .loggingOut refreshToken)
  | .refused access request => s.lock (.comparing access request)
  | .comparing access request =>
    if s.session.access = some access then
      some (s, .refreshing (.authorizedJson access request))
    else some (s, .retrying request)
  | .retrying request =>
    match s.session.access with
    | none => some (s.unlock, .done false)
    | some access => some (s, .requesting true access request)
  | .loaded refresh =>
    some ({ s with session := { s.session with refresh := some refresh } }, .restoring)
  | .restoring => s.lock (.refreshing .restore)
  | .refreshing call =>
    match s.session.refresh with
    | none => some (s, .dropping false)
    | some refreshToken => some (s, .posting call refreshToken)
  | .answered call session =>
    if ok then some ({ s with credential := some session.refreshToken }, .storing call session)
    else some (s.unlock, .done false)
  | .storing call session =>
    let s := { s with session := session.tokens }
    match call with
    | .authorizedJson _ request => some (s, .retrying request)
    | .restore => some (s.unlock, .done false)
  | .dropping logout => some ({ s with session := .default }, .clearing logout)
  | .clearing logout =>
    let s := if ok then { s with credential := none } else s
    some (if logout then s else s.unlock, .done logout)
  | _ => none

variable (env : Env)

/-- The server's part. An access token is checked first, the transaction is one of its user. -/
def answer (s : ApiState) (now : DateTime) : ApiTask → Option (ApiState × ApiTask)
  | .requesting retry access request =>
    match authenticateIdentity env s.ledger.world.toStore access now with
    | .ok (userId, _) => some (s, .admitted retry access request userId)
    | .error _ => some (s.finish retry, refuse retry access request)
  | .admitted retry access request userId =>
    match (request userId now).filter fun op => op.actor == some userId with
    | none => some (s.finish retry, .done false)
    | some op =>
      let s' := { s with ledger := s.ledger.commit env op }.finish retry
      match ((op.run env).commit s.ledger.world).1 with
      | .ok _ => some (s', .done false)
      | .error e => some (s', if e.isUnauthorized then refuse retry access request else .done false)
  | .posting call refreshToken =>
    let r := s.ledger.refresh env refreshToken now
    let s' := { s with ledger := r.2 }
    match r.1 with
    | .ok session =>
      some ({ s' with refreshed := call.access.toList ++ s.refreshed }, .answered call session)
    | .error e =>
      if e.isUnauthorized then some (s', .dropping false) else some (s'.unlock, .done false)
  | .loggingOut refreshToken =>
    some ({ s with ledger := s.ledger.commit env (.logout refreshToken) }, .dropping true)
  | _ => none

/-- The result of `logout` is ignored. -/
def lose (s : ApiState) : ApiTask → Option (ApiState × ApiTask)
  | .requesting retry _ _ | .admitted retry _ _ _ => some (s.finish retry, .done false)
  | .posting _ _ | .answered _ _ => some (s.unlock, .done false)
  | .loggingOut _ => some (s, .dropping true)
  | _ => none

def step (call : ApiCall) (s : ApiState) (t : ApiTask) : ApiStep → Option (ApiState × ApiTask)
  | .next ok => t.next call s ok
  | .answer now => t.answer env s now
  | .lose => t.lose s
  | .server _ => none

end ApiTask

/-- The client has the session `g`, which the server has not replaced, in the credential store and,
unless it has just started, in memory. -/
structure SignedIn (env : Env) (g : Grant) (s : ApiState) : Prop where
  reachable : (ledger env).Reachable s.ledger
  granted : g ∈ s.ledger.grants
  current : s.ledger.world.consumedRefreshTokens.get (hashToken env g.session.refreshToken) = none
  session : s.session = g.session.tokens ∨ s.session = .default
  credential : s.credential = some g.session.refreshToken
  gate : s.gate = false
  refreshed : s.refreshed = []

/-- Any number of calls of a client with the session `g`. -/
def apiClient {ι : Type} (env : Env) (g : Grant) (call : ι → ApiCall) :
    Threads (ApiParty ι) ApiState ApiTask ApiStep where
  init s f := SignedIn env g s ∧ ∀ p, f p = .idle
  step p s t l :=
    match p, l with
    | .call i, l => t.step env (call i) s l
    | .others, .server op => some ({ s with ledger := s.ledger.commit env op }, t)
    | .others, _ => none

end IamRust
