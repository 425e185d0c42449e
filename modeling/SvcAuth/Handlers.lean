import SvcAuth.Cookie
import SvcAuth.JwtService
import SvcAuth.Rotation

/-! The four HTTP handlers, as programs over the calls they make. -/
namespace SvcAuth
open Interleave RefreshTokenStore

structure AppState where
  jwt : JwtService
  cookieConfig : CookieConfig
  authCheckSilentRefresh : Bool
  deriving DecidableEq, Repr

/-- The part of the configuration that the state is made of. -/
structure AppConfig where
  jwtSecret : String
  jwtIssuer : String
  accessTokenTtl : UInt64
  refreshTokenTtl : UInt64
  secureCookies : Bool
  authCheckSilentRefresh : Bool
  deriving DecidableEq, Repr

/-- The state as `main` builds it: the lifetimes of cookies are those of the tokens. -/
def AppConfig.state (config : AppConfig) : AppState where
  jwt := ⟨config.jwtSecret, config.jwtIssuer, config.accessTokenTtl, config.refreshTokenTtl⟩
  cookieConfig := .new config.secureCookies config.refreshTokenTtl config.accessTokenTtl
  authCheckSilentRefresh := config.authCheckSilentRefresh

variable (D : Deps) (S : AppState)

def clearCookies (r : Response) : Response :=
  r.withCookies (buildClearAccessCookie S.cookieConfig) (buildClearRefreshCookie S.cookieConfig)

def grantCookies (access refresh : String) (r : Response) : Response :=
  r.withCookies (buildAccessCookie access S.cookieConfig) (buildRefreshCookie refresh S.cookieConfig)

/-- `{"token_type": "Bearer", "expires_in": access_ttl}`. -/
def bearerMetadata : Json :=
  .obj [("token_type", .str "Bearer"), ("expires_in", .int S.jwt.accessTtlSecs.toNat)]

/-- Give the client a session cookie unless it already sent one. -/
def appendSessionCookieIfNeeded (r : Response) (existing : Option String) : Action Response :=
  if existing.isSome then return r
  else do
    let sid ← nowV7
    return r.appendCookie (buildSessionCookie D (D.uuidToString sid) S.cookieConfig)

section Refresh

structure RefreshRequest where
  refreshToken : Option String
  deriving DecidableEq, Repr

def resolveRefreshToken (body : RefreshRequest) (headers : HeaderMap) : Option String :=
  match body.refreshToken with
  | some t => if t.isEmpty then extractRefreshCookie headers S.cookieConfig else some t
  | none => extractRefreshCookie headers S.cookieConfig

def handleRefresh (body : RefreshRequest) (headers : HeaderMap) :
    Action (Except AppError Response) :=
  match resolveRefreshToken S body headers with
  | none => return .ok (.json 200 (.obj [("status", .str "no_session")]))
  | some refreshJwt => do
    match ← S.jwt.verifyRefreshToken D refreshJwt with
    | .error .Expired => return .error (.Unauthorized "refresh_token_expired")
    | .error (.Invalid _) => return .error (.Unauthorized "invalid_refresh_token")
    | .ok claims =>
      match D.parseStr claims.jti with
      | none => return .error (.Unauthorized "invalid_refresh_token")
      | some jti =>
        match ← findById D jti with
        | .error e => return .error (.Internal (e.toString D))
        | .ok none => return .error (.Unauthorized "invalid_refresh_token")
        | .ok (some (tokenRow, revision)) =>
          if ← isFamilyRevoked D tokenRow.familyId then
            return .error (.Unauthorized "token_family_revoked")
          else
            let email := claims.sub
            match ← S.jwt.signAccessToken D email with
            | .error e => return .error (.Internal e)
            | .ok newAccess =>
              match ← S.jwt.signRefreshToken D email with
              | .error e => return .error (.Internal e)
              | .ok (newRefreshJwt, newTokenId) =>
                let now ← utcNow
                let newToken : RefreshToken :=
                  ⟨newTokenId, email, tokenRow.familyId, none, none, now⟩
                match ← rotate D tokenRow revision newToken with
                | .error (.Reuse _) => return .error (.Unauthorized "token_reuse_detected")
                | .error (.Store e) => return .error (.Internal (e.toString D))
                | .ok () =>
                  return .ok (grantCookies S newAccess newRefreshJwt
                    (.json 200 (bearerMetadata S)))

/-- A body that is not JSON counts as an empty one. -/
def refreshHandler (headers : HeaderMap) (body : Option RefreshRequest) : Action Response := do
  let body := body.getD ⟨none⟩
  let existingSession := extractSessionCookie D headers S.cookieConfig
  let response ← match ← handleRefresh D S body headers with
    | .ok r => pure r
    | .error e =>
      let response := e.intoResponse
      if response.status = 401 then pure (clearCookies S response) else pure response
  appendSessionCookieIfNeeded D S response existingSession

end Refresh

section AuthCheck

def clearCookiesResponse : Response := clearCookies S (.ofStatus 200)

def clearAccessCookieResponse : Response :=
  (Response.ofStatus 200).insertCookie (buildClearAccessCookie S.cookieConfig)

def silentRefresh (headers : HeaderMap) : Action Response :=
  match extractRefreshCookie headers S.cookieConfig with
  | none => return clearAccessCookieResponse S
  | some refreshJwt => do
    match ← S.jwt.verifyRefreshToken D refreshJwt with
    | .error .Expired => return clearCookiesResponse S
    | .error (.Invalid _) => return clearCookiesResponse S
    | .ok claims =>
      match D.parseStr claims.jti with
      | none => return clearCookiesResponse S
      | some jti =>
        match ← findById D jti with
        | .error _ => return clearCookiesResponse S
        | .ok none => return clearCookiesResponse S
        | .ok (some (tokenRow, revision)) =>
          if ← isFamilyRevoked D tokenRow.familyId then
            return clearCookiesResponse S
          else
            let email := claims.sub
            match ← S.jwt.signAccessToken D email with
            | .error _ => return clearCookiesResponse S
            | .ok newAccess =>
              match ← S.jwt.signRefreshToken D email with
              | .error _ => return clearCookiesResponse S
              | .ok (newRefreshJwt, newTokenId) =>
                let now ← utcNow
                let newToken : RefreshToken :=
                  ⟨newTokenId, email, tokenRow.familyId, none, none, now⟩
                match ← rotate D tokenRow revision newToken with
                | .error (.Reuse _) => return clearCookiesResponse S
                | .error (.Store _) => return clearCookiesResponse S
                | .ok () => return grantCookies S newAccess newRefreshJwt (.ofStatus 200)

def handleJwtCookie (token : String) (headers : HeaderMap) : Action Response := do
  match ← S.jwt.verifyAccessToken D token with
  | .ok _ => return .ofStatus 200
  | .error .Expired =>
    if S.authCheckSilentRefresh then silentRefresh D S headers else return .ofStatus 401
  | .error (.Invalid _) =>
    if S.authCheckSilentRefresh then return clearCookiesResponse S else return .ofStatus 401

def resolvedBearerResponse (entry : BearerEntry) : Response :=
  let actorHeader := if entry.actor.isHuman then "x-auth-user-id" else "x-auth-service-account-id"
  { Response.ofStatus 200 with
    headers := [(actorHeader, D.uuidToString entry.actor.id),
      ("x-auth-token-id", D.uuidToString entry.tokenId)] }

/-- `eq_ignore_ascii_case`. -/
def eqIgnoreAsciiCase (a b : List Char) : Bool := a.map Char.toLower = b.map Char.toLower

/-- The token of an `Authorization` value, with or without the scheme. -/
def stripBearer (authValue : String) : String :=
  let cs := authValue.toList
  if 7 ≤ cs.length ∧ eqIgnoreAsciiCase (cs.take 7) "bearer ".toList then
    String.ofList (cs.drop 7)
  else authValue

def handleBearer (authValue : String) : Action Response := do
  match ← Prog.op (S := Calls) (.resolve (stripBearer authValue)) with
  | .ok (some entry) => return resolvedBearerResponse D entry
  | .ok none => return .ofStatus 401
  | .error _ => return .ofStatus 502

def authCheckHandler (headers : HeaderMap) : Action Response :=
  let existingSession := extractSessionCookie D headers S.cookieConfig
  match extractAccessCookie headers S.cookieConfig with
  | some accessToken => do
    let response ← handleJwtCookie D S accessToken headers
    appendSessionCookieIfNeeded D S response existingSession
  | none =>
    match headers.authorization >>= HeaderValue.toStr with
    | some authValue => handleBearer D authValue
    | none => appendSessionCookieIfNeeded D S (.ofStatus 200) existingSession

variable {D S} {headers : HeaderMap}

/-- Without an access cookie a readable `Authorization` header decides. -/
theorem authCheckHandler_bearer {value : String}
    (haccess : extractAccessCookie headers S.cookieConfig = none)
    (hvalue : headers.authorization >>= HeaderValue.toStr = some value) :
    authCheckHandler D S headers = handleBearer D value := by
  simp only [authCheckHandler, haccess, hvalue]

/-- With neither a check passes as anonymous. -/
theorem authCheckHandler_anonymous (haccess : extractAccessCookie headers S.cookieConfig = none)
    (hvalue : headers.authorization >>= HeaderValue.toStr = none) :
    authCheckHandler D S headers = appendSessionCookieIfNeeded D S (.ofStatus 200)
      (extractSessionCookie D headers S.cookieConfig) := by
  simp only [authCheckHandler, haccess, hvalue]

end AuthCheck

section Logout

/-- Every failed condition of the chain skips the revocation. -/
def logoutRevocation (headers : HeaderMap) : Action Unit :=
  match extractRefreshCookie headers S.cookieConfig with
  | none => return ()
  | some tokenJwt => do
    match ← S.jwt.verifyRefreshToken D tokenJwt with
    | .error _ => return ()
    | .ok claims =>
      match D.parseStr claims.jti with
      | none => return ()
      | some jti =>
        match ← findById D jti with
        | .ok (some (row, _)) =>
          let _ ← revokeFamily D row.familyId
          return ()
        | _ => return ()

def logoutHandler (headers : HeaderMap) : Action Response := do
  logoutRevocation D S headers
  return clearCookies S (.json 200 (.obj [("status", .str "logged_out")]))

end Logout

section Token

structure TokenRequest where
  grantType : Option String
  idToken : Option String
  deriving DecidableEq, Repr

def handleToken (body : TokenRequest) : Action (Except AppError Response) :=
  match body.grantType with
  | none => return .error (.Validation "grant_type is required")
  | some grantType =>
    if grantType ≠ "id_token" then
      return .error (.Validation "unsupported grant_type; expected \"id_token\"")
    else match body.idToken.filter fun t => !t.isEmpty with
    | none => return .error (.Validation "id_token is required")
    | some idToken => do
      match ← Prog.op (S := Calls) (.verifyIdToken idToken) with
      | .error msg => return .error (.Unauthorized msg)
      | .ok claims =>
        let email := claims.email
        if email.isEmpty then return .error (.Validation "no_email_in_token")
        else
          match ← S.jwt.signAccessToken D email with
          | .error e => return .error (.Internal e)
          | .ok accessToken =>
            match ← S.jwt.signRefreshToken D email with
            | .error e => return .error (.Internal e)
            | .ok (refreshJwt, tokenId) =>
              let familyId ← nowV7
              let now ← utcNow
              match ← store D ⟨tokenId, email, familyId, none, none, now⟩ with
              | .error _ => return .error (.Internal "failed to create session")
              | .ok () =>
                return .ok (grantCookies S accessToken refreshJwt (.json 200 (bearerMetadata S)))

def tokenHandler (headers : HeaderMap) (body : Option TokenRequest) : Action Response :=
  match body with
  | none => return (AppError.Validation "invalid request body").intoResponse
  | some body => do
    let existingSession := extractSessionCookie D headers S.cookieConfig
    match ← handleToken D S body with
    | .ok r => appendSessionCookieIfNeeded D S r existingSession
    | .error e => return e.intoResponse

end Token

/-- A request to one of the four routes. A body that failed to parse is `none`. -/
inductive Request
  | token (headers : HeaderMap) (body : Option TokenRequest)
  | refresh (headers : HeaderMap) (body : Option RefreshRequest)
  | check (headers : HeaderMap)
  | logout (headers : HeaderMap)
  deriving DecidableEq, Repr

/-- The router. -/
def serve : Request → Action Response
  | .token headers body => tokenHandler D S headers body
  | .refresh headers body => refreshHandler D S headers body
  | .check headers => authCheckHandler D S headers
  | .logout headers => logoutHandler D S headers

end SvcAuth
