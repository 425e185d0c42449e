import SvcAuth.Handlers

/-! The renewal of a presented refresh token. Both rotation paths are this one program,
with an answer in the handler's own shape. -/
namespace SvcAuth
open Interleave RefreshTokenStore

variable (D : Deps) (S : AppState)

/-- The two new tokens, or the error that `/auth/refresh` answers with. -/
abbrev Renewed := Except AppError (String × String)

/-- The renewal of a presented refresh token, answered in a shape still open. -/
def renewal {α : Type} (answer : Renewed → α) (refreshJwt : String) : Action α := do
  match ← S.jwt.verifyRefreshToken D refreshJwt with
  | .error .Expired => return answer (.error (.Unauthorized "refresh_token_expired"))
  | .error (.Invalid _) => return answer (.error (.Unauthorized "invalid_refresh_token"))
  | .ok claims =>
    match D.parseStr claims.jti with
    | none => return answer (.error (.Unauthorized "invalid_refresh_token"))
    | some jti =>
      match ← findById D jti with
      | .error e => return answer (.error (.Internal (e.toString D)))
      | .ok none => return answer (.error (.Unauthorized "invalid_refresh_token"))
      | .ok (some (tokenRow, revision)) =>
        if ← isFamilyRevoked D tokenRow.familyId then
          return answer (.error (.Unauthorized "token_family_revoked"))
        else
          let email := claims.sub
          match ← S.jwt.signAccessToken D email with
          | .error e => return answer (.error (.Internal e))
          | .ok newAccess =>
            match ← S.jwt.signRefreshToken D email with
            | .error e => return answer (.error (.Internal e))
            | .ok (newRefreshJwt, newTokenId) =>
              let now ← utcNow
              let newToken : RefreshToken :=
                ⟨newTokenId, email, tokenRow.familyId, none, none, now⟩
              match ← rotate D tokenRow revision newToken with
              | .error (.Reuse _) => return answer (.error (.Unauthorized "token_reuse_detected"))
              | .error (.Store e) => return answer (.error (.Internal (e.toString D)))
              | .ok () => return answer (.ok (newAccess, newRefreshJwt))

/-- What `/auth/refresh` sends for a handler result. -/
def sent (r : Except AppError Response) : Response :=
  match r with
  | .ok r => r
  | .error e =>
    let response := e.intoResponse
    if response.status = 401 then clearCookies S response else response

/-- What becomes of a renewal after its rotation. -/
def rotationAnswer (D : Deps) (tokens : String × String) : Except RotationError Unit → Renewed
  | .ok () => .ok tokens
  | .error (.Reuse _) => .error (.Unauthorized "token_reuse_detected")
  | .error (.Store e) => .error (.Internal (e.toString D))

section Handlers
variable {D S} {headers : HeaderMap} {body : RefreshRequest} {jwt : String}

/-- The calls of a renewal written out down to its rotation. -/
theorem renewal_eq {α : Type} (answer : Renewed → α) (jwt : String) : renewal D S answer jwt =
    .call .utcNow fun now =>
      match S.jwt.refreshVerdict D jwt now with
      | .error .Expired => .ret (answer (.error (.Unauthorized "refresh_token_expired")))
      | .error (.Invalid _) => .ret (answer (.error (.Unauthorized "invalid_refresh_token")))
      | .ok claims =>
        match D.parseStr claims.jti with
        | none => .ret (answer (.error (.Unauthorized "invalid_refresh_token")))
        | some jti => .call (.get (rowKey D jti)) fun found =>
          match rowRead found with
          | .error e => .ret (answer (.error (.Internal (e.toString D))))
          | .ok none => .ret (answer (.error (.Unauthorized "invalid_refresh_token")))
          | .ok (some (row, revision)) => .call (.get (markerKey D row.familyId)) fun looked =>
            if markerRead looked then .ret (answer (.error (.Unauthorized "token_family_revoked")))
            else .call .utcNow fun signed => .call .nowV7 fun newId => .call .utcNow fun refreshed =>
              .call .utcNow fun created =>
                rotate D row revision ⟨newId, claims.sub, row.familyId, none, none, created⟩ >>=
                  fun rotated => .ret (answer (rotationAnswer D
                    (S.jwt.accessToken D claims.sub signed,
                      S.jwt.refreshToken D claims.sub newId refreshed) rotated)) := by
  rw [renewal, JwtService.verifyRefreshToken_bind]
  refine call_congr fun now => ?_
  rcases S.jwt.refreshVerdict D jwt now with (_ | _) | claims
  · rfl
  · rfl
  · simp only
    rcases D.parseStr claims.jti with _ | jti
    · rfl
    · simp only
      rw [findById_bind]
      refine call_congr fun found => ?_
      rcases rowRead found with e | _ | ⟨row, revision⟩
      · rfl
      · rfl
      · simp only
        rw [isFamilyRevoked_bind]
        refine call_congr fun looked => ?_
        cases markerRead looked with
        | true => rfl
        | false =>
          rw [if_neg Bool.false_ne_true, if_neg Bool.false_ne_true, JwtService.signAccessToken_bind]
          refine call_congr fun signed => ?_
          simp only
          rw [JwtService.signRefreshToken_bind]
          refine call_congr fun newId => call_congr fun refreshed => ?_
          simp only
          rw [utcNow_bind]
          refine call_congr fun created => congrArg _ (funext fun rotated => ?_)
          rcases rotated with (_ | _) | _ <;> rfl

theorem renewal_answer {α : Type} (answer : Renewed → α) (jwt : String) :
    renewal D S answer jwt = renewal D S id jwt >>= fun r => .ret (answer r) := by
  rw [renewal_eq, renewal_eq, Prog.call_bind]
  refine call_congr fun now => ?_
  rcases S.jwt.refreshVerdict D jwt now with (_ | _) | claims
  · rfl
  · rfl
  · simp only
    rcases D.parseStr claims.jti with _ | jti
    · rfl
    · simp only [Prog.call_bind]
      refine call_congr fun found => ?_
      rcases rowRead found with e | _ | ⟨row, revision⟩
      · rfl
      · rfl
      · simp only [Prog.call_bind]
        refine call_congr fun looked => ?_
        cases markerRead looked with
        | true => rfl
        | false => simp [Prog.bind_assoc]

theorem handleRefresh_eq (hjwt : resolveRefreshToken S body headers = some jwt) :
    handleRefresh D S body headers = renewal D S (fun r => r.map fun tokens =>
      grantCookies S tokens.1 tokens.2 (.json 200 (bearerMetadata S))) jwt := by
  unfold handleRefresh
  rw [hjwt]
  rfl

/-- How `/auth/check` answers a renewal. -/
def checkAnswer (S : AppState) : Renewed → Response
  | .ok (access, refresh) => grantCookies S access refresh (.ofStatus 200)
  | .error _ => clearCookiesResponse S

/-- How `/auth/refresh` answers a renewal. -/
def refreshAnswer (S : AppState) : Renewed → Response
  | .ok (access, refresh) => grantCookies S access refresh (.json 200 (bearerMetadata S))
  | .error e =>
    if e.intoResponse.status = 401 then clearCookies S e.intoResponse else e.intoResponse

theorem sent_answer (r : Renewed) : sent S (r.map fun tokens =>
    grantCookies S tokens.1 tokens.2 (.json 200 (bearerMetadata S))) = refreshAnswer S r := by
  cases r <;> rfl

theorem silentRefresh_eq (hjwt : extractRefreshCookie headers S.cookieConfig = some jwt) :
    silentRefresh D S headers = renewal D S id jwt >>= fun r => .ret (checkAnswer S r) := by
  rw [← renewal_answer]
  unfold silentRefresh
  rw [hjwt]
  rfl

theorem refreshHandler_eq {body : Option RefreshRequest}
    (hjwt : resolveRefreshToken S (body.getD ⟨none⟩) headers = some jwt) :
    refreshHandler D S headers body = renewal D S id jwt >>= fun r =>
      appendSessionCookieIfNeeded D S (refreshAnswer S r)
        (extractSessionCookie D headers S.cookieConfig) := by
  unfold refreshHandler
  simp only
  rw [handleRefresh_eq hjwt, renewal_answer, Prog.bind_assoc]
  refine congrArg _ (funext fun r => ?_)
  rw [Prog.ret_bind, ← sent_answer]
  rcases r with e | tokens
  · by_cases h401 : e.intoResponse.status = 401
    · simp [Except.map, sent, h401]
    · simp [Except.map, sent, h401]
  · rfl

/-- Every cookie of a response is cleared. -/
def Response.Clears (r : Response) : Prop := ∀ cookie ∈ r.setCookie, cookie.value = ""

theorem clearCookies_clears (r : Response) : (clearCookies S r).Clears := by
  intro cookie hc
  simp only [clearCookies, Response.withCookies_setCookie, List.mem_cons, List.not_mem_nil,
    or_false] at hc
  rcases hc with rfl | rfl <;> rfl

theorem intoResponse_clears (e : AppError) : e.intoResponse.Clears := by
  intro cookie hc
  cases hc

theorem refreshAnswer_clears (e : AppError) : (refreshAnswer S (.error e)).Clears := by
  by_cases h401 : e.intoResponse.status = 401
  · rw [refreshAnswer, if_pos h401]
    exact clearCookies_clears _
  · rw [refreshAnswer, if_neg h401]
    exact intoResponse_clears e

/-- Behind an access token that has expired, `/auth/check` is a renewal. -/
theorem authCheckHandler_eq {token : String} (hon : S.authCheckSilentRefresh = true)
    (haccess : extractAccessCookie headers S.cookieConfig = some token)
    (hjwt : extractRefreshCookie headers S.cookieConfig = some jwt) :
    authCheckHandler D S headers = .call .utcNow fun now =>
      match S.jwt.accessVerdict D token now with
      | .ok _ => appendSessionCookieIfNeeded D S (.ofStatus 200)
          (extractSessionCookie D headers S.cookieConfig)
      | .error .Expired => renewal D S id jwt >>= fun r =>
          appendSessionCookieIfNeeded D S (checkAnswer S r)
            (extractSessionCookie D headers S.cookieConfig)
      | .error (.Invalid _) => appendSessionCookieIfNeeded D S (clearCookiesResponse S)
          (extractSessionCookie D headers S.cookieConfig) := by
  unfold authCheckHandler handleJwtCookie
  rw [haccess, silentRefresh_eq hjwt]
  simp only [hon, if_true]
  rw [Prog.bind_assoc, JwtService.verifyAccessToken_bind]
  refine call_congr fun now => ?_
  rcases S.jwt.accessVerdict D token now with (_ | _) | claims
  · simp only [Prog.bind_assoc, Prog.ret_bind]
  · rfl
  · rfl

/-- A session id is appended with one more call, or not at all. -/
theorem session_ran {plain r : Response} {session : Option String} {tr : List Calls.Event}
    (h : Prog.Ran (appendSessionCookieIfNeeded D S plain session) tr r) :
    (tr = [] ∧ r = plain) ∨ ∃ sid, tr = [⟨.nowV7, sid⟩] ∧
      r = plain.appendCookie (buildSessionCookie D (D.uuidToString sid) S.cookieConfig) := by
  unfold appendSessionCookieIfNeeded at h
  cases session with
  | some sid => exact .inl (Prog.ran_ret.mp h)
  | none =>
    obtain ⟨sid, rest, rfl, h₁⟩ := Prog.ran_call.mp h
    obtain ⟨rfl, rfl⟩ := Prog.ran_ret.mp h₁
    exact .inr ⟨sid, rfl, rfl⟩

end Handlers

section Calls
variable {D S} {jwt : String} {tr : List Calls.Event}

/-- The refresh token verifies at this clock reading, and these are its claims and its id. -/
def Accepts (D : Deps) (S : AppState) (jwt : String) (now : ℕ) (claims : RefreshClaims)
    (id : Uuid) : Prop :=
  S.jwt.refreshVerdict D jwt now = .ok claims ∧ D.parseStr claims.jti = some id

/-- The calls of a renewal, in order, and what it returns. -/
inductive RenewalCalls (D : Deps) (S : AppState) (jwt : String) : List Calls.Event → Renewed → Prop
  | refused {now : ℕ} {message : String} (unaccepted : ∀ claims id, ¬ Accepts D S jwt now claims id) :
      RenewalCalls D S jwt [⟨.utcNow, now⟩] (.error (.Unauthorized message))
  | unread {now : ℕ} {claims : RefreshClaims} {id : Uuid}
      {found : Except FabricError (Option (Entry × Revision))} {e : StoreError}
      (accepted : Accepts D S jwt now claims id) (unread : rowRead found = .error e) :
      RenewalCalls D S jwt [⟨.utcNow, now⟩, ⟨.get (rowKey D id), found⟩]
        (.error (.Internal (e.toString D)))
  | absent {now : ℕ} {claims : RefreshClaims} {id : Uuid} {message : String}
      (accepted : Accepts D S jwt now claims id) :
      RenewalCalls D S jwt [⟨.utcNow, now⟩, ⟨.get (rowKey D id), .ok none⟩]
        (.error (.Unauthorized message))
  | revoked {now : ℕ} {claims : RefreshClaims} {id : Uuid} {row : RefreshToken}
      {revision : Revision} {looked : Except FabricError (Option (Entry × Revision))}
      {message : String} (accepted : Accepts D S jwt now claims id)
      (marked : markerRead looked = true) :
      RenewalCalls D S jwt [⟨.utcNow, now⟩, ⟨.get (rowKey D id), .ok (some (.token row, revision))⟩,
        ⟨.get (markerKey D row.familyId), looked⟩] (.error (.Unauthorized message))
  | rotating {now signed refreshed created : ℕ} {claims : RefreshClaims} {id newId : Uuid}
      {row : RefreshToken} {revision : Revision}
      {looked : Except FabricError (Option (Entry × Revision))} {rest : List Calls.Event}
      {rotated : Except RotationError Unit} (accepted : Accepts D S jwt now claims id)
      (unmarked : markerRead looked = false)
      (calls : RotateCalls D row revision ⟨newId, claims.sub, row.familyId, none, none, created⟩ rest
        rotated) :
      RenewalCalls D S jwt (⟨.utcNow, now⟩ ::
        ⟨.get (rowKey D id), .ok (some (.token row, revision))⟩ ::
        ⟨.get (markerKey D row.familyId), looked⟩ :: ⟨.utcNow, signed⟩ :: ⟨.nowV7, newId⟩ ::
        ⟨.utcNow, refreshed⟩ :: ⟨.utcNow, created⟩ :: rest)
        (rotationAnswer D (S.jwt.accessToken D claims.sub signed,
          S.jwt.refreshToken D claims.sub newId refreshed) rotated)

theorem renewal_ran {r : Renewed} (h : Prog.Ran (renewal D S id jwt) tr r) :
    RenewalCalls D S jwt tr r := by
  rw [renewal_eq] at h
  obtain ⟨now, tr, rfl, h₁⟩ := Prog.ran_call.mp h
  rcases hverdict : S.jwt.refreshVerdict D jwt now with (_ | _) | claims <;>
    simp only [hverdict] at h₁
  · obtain ⟨rfl, rfl⟩ := Prog.ran_ret.mp h₁
    exact .refused (by simp [Accepts, hverdict])
  · obtain ⟨rfl, rfl⟩ := Prog.ran_ret.mp h₁
    exact .refused (by simp [Accepts, hverdict])
  · rcases hjti : D.parseStr claims.jti with _ | jti <;> simp only [hjti] at h₁
    · obtain ⟨rfl, rfl⟩ := Prog.ran_ret.mp h₁
      refine .refused fun claims' jti haccepted => ?_
      have hsame : claims = claims' := Except.ok.inj (hverdict.symm.trans haccepted.1)
      exact absurd (hjti.symm.trans (hsame ▸ haccepted.2)) (by simp)
    · obtain ⟨found, tr, rfl, h₂⟩ := Prog.ran_call.mp h₁
      have haccepted : Accepts D S jwt now claims jti := ⟨hverdict, hjti⟩
      rcases found with e | _ | ⟨row | marker, revision⟩ <;> simp only [rowRead] at h₂
      · obtain ⟨rfl, rfl⟩ := Prog.ran_ret.mp h₂
        exact .unread haccepted rfl
      · obtain ⟨rfl, rfl⟩ := Prog.ran_ret.mp h₂
        exact .absent haccepted
      · obtain ⟨looked, tr, rfl, h₃⟩ := Prog.ran_call.mp h₂
        cases hlooked : markerRead looked with
        | true =>
          rw [hlooked, if_pos rfl] at h₃
          obtain ⟨rfl, rfl⟩ := Prog.ran_ret.mp h₃
          exact .revoked haccepted hlooked
        | false =>
          rw [hlooked, if_neg Bool.false_ne_true] at h₃
          obtain ⟨signed, tr, rfl, h₄⟩ := Prog.ran_call.mp h₃
          obtain ⟨newId, tr, rfl, h₅⟩ := Prog.ran_call.mp h₄
          obtain ⟨refreshed, tr, rfl, h₆⟩ := Prog.ran_call.mp h₅
          obtain ⟨created, tr, rfl, h₇⟩ := Prog.ran_call.mp h₆
          obtain ⟨rotated, t₁, t₂, rfl, hrotate, h₈⟩ := Prog.ran_bind.mp h₇
          obtain ⟨rfl, rfl⟩ := Prog.ran_ret.mp h₈
          rw [List.append_nil]
          exact .rotating haccepted hlooked (rotate_ran hrotate)
      · obtain ⟨rfl, rfl⟩ := Prog.ran_ret.mp h₂
        exact .unread haccepted rfl

/-- A renewal that comes to its rotation. -/
theorem rotating_ran (signed refreshed : ℕ) {now created : ℕ} {claims : RefreshClaims} {id newId : Uuid}
    {row : RefreshToken} {revision : Revision} {looked : Except FabricError (Option (Entry × Revision))}
    {rest : List Calls.Event} {rotated : Except RotationError Unit}
    (accepted : Accepts D S jwt now claims id) (unmarked : markerRead looked = false)
    (calls : RotateCalls D row revision ⟨newId, claims.sub, row.familyId, none, none, created⟩ rest
      rotated) :
    Prog.Ran (renewal D S (fun r => r) jwt) (⟨.utcNow, now⟩ ::
      ⟨.get (rowKey D id), .ok (some (.token row, revision))⟩ ::
      ⟨.get (markerKey D row.familyId), looked⟩ :: ⟨.utcNow, signed⟩ :: ⟨.nowV7, newId⟩ ::
      ⟨.utcNow, refreshed⟩ :: ⟨.utcNow, created⟩ :: rest)
      (rotationAnswer D (S.jwt.accessToken D claims.sub signed,
        S.jwt.refreshToken D claims.sub newId refreshed) rotated) := by
  rw [renewal_eq]
  refine .call ?_
  simp only [accepted.1, accepted.2]
  refine .call (.call ?_)
  rw [unmarked, if_neg Bool.false_ne_true]
  refine .call (.call (.call (.call ?_)))
  exact Prog.ran_bind.mpr ⟨rotated, rest, [], (List.append_nil _).symm, calls.ran, .ret _⟩

end Calls

end SvcAuth
