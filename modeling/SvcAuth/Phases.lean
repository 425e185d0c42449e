import SvcAuth.Service

/-! The handlers as one machine of named phases. Both rotation paths run through the
same phases and differ in how an outcome is answered. A phase keeps what the request
has learnt so far, and an outcome keeps what it was reached with. Every handler
follows the machine call by call, so runs of the service are runs of the machine. -/
namespace SvcAuth
open Interleave RefreshTokenStore

inductive Route
  | token | refresh | check
  deriving DecidableEq, Repr

/-- Where an answer goes: the handler, and the session cookie the client already had. -/
structure Ctx where
  route : Route
  session : Option String
  deriving DecidableEq, Repr

/-- A row as it was read, with its revision. -/
structure Held where
  row : RefreshToken
  revision : Revision
  deriving DecidableEq, Repr

/-- A rotation ready to be committed: the row it replaces, not used when it was read,
and the tokens signed for the client at the two clock readings. -/
structure Draft where
  held : Held
  unused : held.row.usedAt = none
  email : String
  signed : ℕ
  id : Uuid
  refreshed : ℕ
  created : ℕ

namespace Draft

/-- The row of the new token. -/
def successor (d : Draft) : RefreshToken :=
  ⟨d.id, d.email, d.held.row.familyId, none, none, d.created⟩

/-- The old row as `markUsed` writes it back. -/
def replaced (d : Draft) (now : ℕ) : RefreshToken :=
  { d.held.row with usedAt := some now, replacedBy := some d.id }

end Draft

/-- A login ready to be stored: what was verified, minted and read from the clock. -/
structure Opening where
  email : String
  signed : ℕ
  id : Uuid
  refreshed : ℕ
  family : Uuid
  created : ℕ

/-- The first row of a family. -/
def Opening.row (p : Opening) : RefreshToken := ⟨p.id, p.email, p.family, none, none, p.created⟩

/-- How an attempt to hand out tokens ended. -/
inductive Outcome
  | expired (jwt : String) (now : ℕ)
  | invalid (jwt : String) (now : ℕ)
  | missing (jti : Uuid)
  | unread (jti : Uuid)
  | revoked (h : Held)
  | reuse (h : Held)
  | unavailable (h : Held)
  | granted (d : Draft)
  | opened (p : Opening)

/-- Answers that have nothing to do with new tokens. -/
inductive Notice
  | status (code : ℕ)
  | noSession
  | clearAccess
  | clearBoth
  | resolved (entry : BearerEntry)
  | refused (e : AppError)

inductive Phase
  | verify (x : Ctx) (jwt : String)
  | find (x : Ctx) (email : String) (jti : Uuid)
  | lookup (x : Ctx) (email : String) (h : Held)
  | access (x : Ctx) (email : String) (h : Held)
  | mint (x : Ctx) (email : String) (h : Held) (signed : ℕ)
  | refresh (x : Ctx) (email : String) (h : Held) (signed : ℕ) (id : Uuid)
  | created (x : Ctx) (email : String) (h : Held) (signed : ℕ) (id : Uuid) (refreshed : ℕ)
  | store (x : Ctx) (d : Draft)
  | stamp (x : Ctx) (d : Draft)
  | mark (x : Ctx) (d : Draft) (now : ℕ)
  | revokeStamp (x : Ctx) (h : Held)
  | revoke (x : Ctx) (h : Held) (now : ℕ)
  | settle (x : Ctx) (o : Outcome)
  | done (x : Ctx) (o : Outcome) (sid : Uuid)
  | reply (session : Option String) (n : Notice)
  | replied (n : Notice) (sid : Uuid)
  | closed (n : Notice)
  | accessVerify (session : Option String) (token : String) (refresh : Option String)
  | bearer (token : String)
  | logoutVerify (jwt : String)
  | logoutFind (jti : Uuid)
  | logoutStamp (h : Held)
  | logoutRevoke (h : Held) (now : ℕ)
  | logoutDone (seen : Option Held)
  | login (session : Option String) (idToken : String)
  | loginAccess (session : Option String) (email : String)
  | loginMint (session : Option String) (email : String) (signed : ℕ)
  | loginRefresh (session : Option String) (email : String) (signed : ℕ) (id : Uuid)
  | loginFamily (session : Option String) (email : String) (signed : ℕ) (id : Uuid) (refreshed : ℕ)
  | loginCreated (session : Option String) (email : String) (signed : ℕ) (id : Uuid)
      (refreshed : ℕ) (family : Uuid)
  | loginStore (session : Option String) (p : Opening)

variable (D : Deps) (S : AppState)

section Responses

/-- The error `/auth/refresh` answers an outcome with. -/
def Outcome.refusal : Outcome → AppError
  | .expired _ _ => .Unauthorized "refresh_token_expired"
  | .invalid _ _ | .missing _ => .Unauthorized "invalid_refresh_token"
  | .revoked _ => .Unauthorized "token_family_revoked"
  | .reuse _ => .Unauthorized "token_reuse_detected"
  | _ => .Internal ""

/-- The access and refresh tokens an outcome hands out. -/
def Outcome.tokens : Outcome → Option (String × String)
  | .granted d => some (S.jwt.accessToken D d.email d.signed,
      S.jwt.refreshToken D d.email d.id d.refreshed)
  | .opened p => some (S.jwt.accessToken D p.email p.signed,
      S.jwt.refreshToken D p.email p.id p.refreshed)
  | _ => none

def respond (x : Ctx) (o : Outcome) : Response :=
  match o.tokens D S, x.route with
  | some (access, refresh), .check => grantCookies S access refresh (.ofStatus 200)
  | some (access, refresh), _ => grantCookies S access refresh (.json 200 (bearerMetadata S))
  | none, .check => clearCookiesResponse S
  | none, _ =>
    let response := o.refusal.intoResponse
    if response.status = 401 then clearCookies S response else response

def Notice.render : Notice → Response
  | .status code => .ofStatus code
  | .noSession => .json 200 (.obj [("status", .str "no_session")])
  | .clearAccess => clearAccessCookieResponse S
  | .clearBoth => clearCookiesResponse S
  | .resolved entry => resolvedBearerResponse D entry
  | .refused e => e.intoResponse

end Responses

/-- The first phase of `rotate`: a used row goes straight to the revocation. -/
def beginRotate (x : Ctx) (email : String) (h : Held) (signed : ℕ) (id : Uuid) (refreshed : ℕ)
    (now : ℕ) : Phase :=
  if unused : h.row.usedAt = none then .store x ⟨h, unused, email, signed, id, refreshed, now⟩
  else .revokeStamp x h

def withSession (r : Response) (sid : Uuid) : Response :=
  r.appendCookie (buildSessionCookie D (D.uuidToString sid) S.cookieConfig)

/-- A phase that waits for a call. -/
def wait (o : Op) (k : o.Reply → Phase) : Response ⊕ ((o : Op) × (o.Reply → Phase)) :=
  .inr ⟨o, k⟩

def view : Phase → Response ⊕ ((o : Op) × (o.Reply → Phase))
  | .verify x jwt => wait .utcNow fun now =>
    match S.jwt.refreshVerdict D jwt now with
    | .error .Expired => .settle x (.expired jwt now)
    | .error (.Invalid _) => .settle x (.invalid jwt now)
    | .ok claims =>
      match D.parseStr claims.jti with
      | none => .settle x (.invalid jwt now)
      | some jti => .find x claims.sub jti
  | .find x email jti => wait (.get (rowKey D jti)) fun r =>
    match rowRead r with
    | .error _ => .settle x (.unread jti)
    | .ok none => .settle x (.missing jti)
    | .ok (some (row, revision)) => .lookup x email ⟨row, revision⟩
  | .lookup x email h => wait (.get (markerKey D h.row.familyId)) fun r =>
    if markerRead r then .settle x (.revoked h) else .access x email h
  | .access x email h => wait .utcNow fun signed => .mint x email h signed
  | .mint x email h signed => wait .nowV7 fun id => .refresh x email h signed id
  | .refresh x email h signed id => wait .utcNow fun now => .created x email h signed id now
  | .created x email h signed id refreshed => wait .utcNow fun now =>
    beginRotate x email h signed id refreshed now
  | .store x d => wait (.put (rowKey D d.id) (.token d.successor)) fun
    | .ok () => .stamp x d
    | .error _ => .settle x (.unavailable d.held)
  | .stamp x d => wait .utcNow fun now => .mark x d now
  | .mark x d now =>
    wait (.updateIf (rowKey D d.held.row.id) (.token (d.replaced now)) d.held.revision) fun
    | .ok () => .settle x (.granted d)
    | .error .RevisionConflict => .revokeStamp x d.held
    | .error _ => .settle x (.unavailable d.held)
  | .revokeStamp x h => wait .utcNow fun now => .revoke x h now
  | .revoke x h now => wait (.put (markerKey D h.row.familyId) (.revoked ⟨now⟩)) fun _ =>
    .settle x (.reuse h)
  | .settle x o =>
    if x.session.isSome then .inl (respond D S x o) else wait .nowV7 fun sid => .done x o sid
  | .done x o sid => .inl (withSession D S (respond D S x o) sid)
  | .reply session n =>
    if session.isSome then .inl (n.render D S) else wait .nowV7 fun sid => .replied n sid
  | .replied n sid => .inl (withSession D S (n.render D S) sid)
  | .closed n => .inl (n.render D S)
  | .accessVerify session token refresh => wait .utcNow fun now =>
    match S.jwt.accessVerdict D token now with
    | .ok _ => .reply session (.status 200)
    | .error .Expired =>
      if S.authCheckSilentRefresh then
        match refresh with
        | none => .reply session .clearAccess
        | some jwt => .verify ⟨.check, session⟩ jwt
      else .reply session (.status 401)
    | .error (.Invalid _) =>
      if S.authCheckSilentRefresh then .reply session .clearBoth else .reply session (.status 401)
  | .bearer token => wait (.resolve token) fun
    | .ok (some entry) => .closed (.resolved entry)
    | .ok none => .closed (.status 401)
    | .error _ => .closed (.status 502)
  | .logoutVerify jwt => wait .utcNow fun now =>
    match S.jwt.refreshVerdict D jwt now with
    | .error _ => .logoutDone none
    | .ok claims =>
      match D.parseStr claims.jti with
      | none => .logoutDone none
      | some jti => .logoutFind jti
  | .logoutFind jti => wait (.get (rowKey D jti)) fun r =>
    match rowRead r with
    | .ok (some (row, revision)) => .logoutStamp ⟨row, revision⟩
    | _ => .logoutDone none
  | .logoutStamp h => wait .utcNow fun now => .logoutRevoke h now
  | .logoutRevoke h now => wait (.put (markerKey D h.row.familyId) (.revoked ⟨now⟩)) fun _ =>
    .logoutDone (some h)
  | .logoutDone _ => .inl (clearCookies S (.json 200 (.obj [("status", .str "logged_out")])))
  | .login session idToken => wait (.verifyIdToken idToken) fun
    | .error msg => .closed (.refused (.Unauthorized msg))
    | .ok claims =>
      if claims.email.isEmpty then .closed (.refused (.Validation "no_email_in_token"))
      else .loginAccess session claims.email
  | .loginAccess session email => wait .utcNow fun signed => .loginMint session email signed
  | .loginMint session email signed => wait .nowV7 fun id => .loginRefresh session email signed id
  | .loginRefresh session email signed id => wait .utcNow fun now =>
    .loginFamily session email signed id now
  | .loginFamily session email signed id refreshed => wait .nowV7 fun family =>
    .loginCreated session email signed id refreshed family
  | .loginCreated session email signed id refreshed family => wait .utcNow fun now =>
    .loginStore session ⟨email, signed, id, refreshed, family, now⟩
  | .loginStore session p => wait (.put (rowKey D p.id) (.token p.row)) fun
    | .ok () => .settle ⟨.token, session⟩ (.opened p)
    | .error _ => .closed (.refused (.Internal "failed to create session"))

abbrev machine : Machine Calls Response := ⟨Phase, view D S⟩

section Start

def startToken (headers : HeaderMap) (body : Option TokenRequest) : Phase :=
  match body with
  | none => .closed (.refused (.Validation "invalid request body"))
  | some body =>
    match body.grantType with
    | none => .closed (.refused (.Validation "grant_type is required"))
    | some grantType =>
      if grantType ≠ "id_token" then
        .closed (.refused (.Validation "unsupported grant_type; expected \"id_token\""))
      else match body.idToken.filter fun t => !t.isEmpty with
      | none => .closed (.refused (.Validation "id_token is required"))
      | some idToken => .login (extractSessionCookie D headers S.cookieConfig) idToken

def startRefresh (headers : HeaderMap) (body : Option RefreshRequest) : Phase :=
  match resolveRefreshToken S (body.getD ⟨none⟩) headers with
  | none => .reply (extractSessionCookie D headers S.cookieConfig) .noSession
  | some jwt => .verify ⟨.refresh, extractSessionCookie D headers S.cookieConfig⟩ jwt

def startCheck (headers : HeaderMap) : Phase :=
  match extractAccessCookie headers S.cookieConfig with
  | some token => .accessVerify (extractSessionCookie D headers S.cookieConfig) token
      (extractRefreshCookie headers S.cookieConfig)
  | none =>
    match headers.authorization >>= HeaderValue.toStr with
    | some authValue => .bearer (stripBearer authValue)
    | none => .reply (extractSessionCookie D headers S.cookieConfig) (.status 200)

def startLogout (headers : HeaderMap) : Phase :=
  match extractRefreshCookie headers S.cookieConfig with
  | none => .logoutDone none
  | some jwt => .logoutVerify jwt

/-- The phase a request starts in. -/
def start : Request → Phase
  | .token headers body => startToken D S headers body
  | .refresh headers body => startRefresh D S headers body
  | .check headers => startCheck D S headers
  | .logout headers => startLogout S headers

end Start

abbrev PhaseState := Config Phase World

/-- What happens between two states of the phases. -/
abbrev PhaseSegment (G : Assumption) : PhaseState → List Event → PhaseState → Prop :=
  Trace (GuardedStep service (machine D S) (start D S) G)

/-- A run of the phases from an empty bucket. -/
abbrev PhaseRun (G : Assumption) (clock : ℕ) : List Event → PhaseState → Prop :=
  PhaseSegment D S G (.initial (.initial clock))

end SvcAuth
