import SvcAuth.Phases

/-! Every move of the machine, said once: the phase it leaves, the call with its answer,
the phase it enters, and what the answer had to be. -/
namespace SvcAuth
open Interleave RefreshTokenStore

variable (D : Deps) (S : AppState)

/-- Where a request starts, and what it takes from its headers and body there. -/
inductive Starts : Request → Phase → Prop
  | tokenRefused {headers : HeaderMap} {body : Option TokenRequest} {n : Notice} :
      Starts (.token headers body) (.closed n)
  | login {headers : HeaderMap} {body : Option TokenRequest} {s : Option String}
      {idToken : String} : Starts (.token headers body) (.login s idToken)
  | noSession {headers : HeaderMap} {body : Option RefreshRequest} {s : Option String}
      {n : Notice} (absent : resolveRefreshToken S (body.getD ⟨none⟩) headers = none) :
      Starts (.refresh headers body) (.reply s n)
  | refresh {headers : HeaderMap} {body : Option RefreshRequest} {x : Ctx} {jwt : String}
      (presented : resolveRefreshToken S (body.getD ⟨none⟩) headers = some jwt) :
      Starts (.refresh headers body) (.verify x jwt)
  | access {headers : HeaderMap} {s : Option String} {token : String}
      (presented : extractAccessCookie headers S.cookieConfig = some token) :
      Starts (.check headers)
        (.accessVerify s token (extractRefreshCookie headers S.cookieConfig))
  | bearer {headers : HeaderMap} {token : String}
      (absent : extractAccessCookie headers S.cookieConfig = none) :
      Starts (.check headers) (.bearer token)
  | anonymous {headers : HeaderMap} {s : Option String} {n : Notice}
      (absent : extractAccessCookie headers S.cookieConfig = none) :
      Starts (.check headers) (.reply s n)
  | logout {headers : HeaderMap} {jwt : String}
      (presented : extractRefreshCookie headers S.cookieConfig = some jwt) :
      Starts (.logout headers) (.logoutVerify jwt)
  | loggedOut {headers : HeaderMap} : Starts (.logout headers) (.logoutDone none)

theorem starts (q : Request) : Starts S q (start D S q) := by
  cases q with
  | token headers body =>
    rcases body with _ | ⟨_ | grantType, idToken⟩
    · exact .tokenRefused
    · exact .tokenRefused
    · by_cases hgrant : grantType = "id_token"
      · simp only [start, startToken, ne_eq, hgrant, not_true_eq_false, if_false]
        cases idToken.filter fun t => !t.isEmpty with
        | none => exact .tokenRefused
        | some idToken => exact .login
      · simp only [start, startToken, ne_eq, hgrant, not_false_eq_true, if_true]
        exact .tokenRefused
  | refresh headers body =>
    simp only [start, startRefresh]
    cases hjwt : resolveRefreshToken S (body.getD ⟨none⟩) headers with
    | none => exact .noSession hjwt
    | some jwt => exact .refresh hjwt
  | check headers =>
    simp only [start, startCheck]
    cases htoken : extractAccessCookie headers S.cookieConfig with
    | some token => exact .access htoken
    | none =>
      cases headers.authorization >>= HeaderValue.toStr with
      | some authValue => exact .bearer htoken
      | none => exact .anonymous htoken
  | logout headers =>
    simp only [start, startLogout]
    cases hjwt : extractRefreshCookie headers S.cookieConfig with
    | none => exact .loggedOut
    | some jwt => exact .logout hjwt

inductive Moves : Phase → Calls.Event → Phase → Prop
  | expired {x : Ctx} {jwt : String} {now : ℕ}
      (verdict : S.jwt.refreshVerdict D jwt now = .error .Expired) :
      Moves (.verify x jwt) ⟨.utcNow, now⟩ (.settle x (.expired jwt now))
  | invalid {x : Ctx} {jwt : String} {now : ℕ}
      (verdict : ∀ claims jti, S.jwt.refreshVerdict D jwt now = .ok claims →
        D.parseStr claims.jti ≠ some jti) :
      Moves (.verify x jwt) ⟨.utcNow, now⟩ (.settle x (.invalid jwt now))
  | verified {x : Ctx} {jwt : String} {now : ℕ} {claims : RefreshClaims} {jti : Uuid}
      (verdict : S.jwt.refreshVerdict D jwt now = .ok claims)
      (parsed : D.parseStr claims.jti = some jti) :
      Moves (.verify x jwt) ⟨.utcNow, now⟩ (.find x claims.sub jti)
  | unread {x : Ctx} {email : String} {jti : Uuid} {e : FabricError} :
      Moves (.find x email jti) ⟨.get (rowKey D jti), .error e⟩ (.settle x (.unread jti))
  | misread {x : Ctx} {email : String} {jti : Uuid} {m : RevokedFamily} {rev : Revision} :
      Moves (.find x email jti) ⟨.get (rowKey D jti), .ok (some (.revoked m, rev))⟩
        (.settle x (.unread jti))
  | missing {x : Ctx} {email : String} {jti : Uuid} :
      Moves (.find x email jti) ⟨.get (rowKey D jti), .ok none⟩ (.settle x (.missing jti))
  | found {x : Ctx} {email : String} {jti : Uuid} {row : RefreshToken} {rev : Revision} :
      Moves (.find x email jti) ⟨.get (rowKey D jti), .ok (some (.token row, rev))⟩
        (.lookup x email ⟨row, rev⟩)
  | revoked {x : Ctx} {email : String} {h : Held} {m : RevokedFamily} {rev : Revision} :
      Moves (.lookup x email h)
        ⟨.get (markerKey D h.row.familyId), .ok (some (.revoked m, rev))⟩ (.settle x (.revoked h))
  | clear {x : Ctx} {email : String} {h : Held}
      {r : Except FabricError (Option (Entry × Revision))} (read : markerRead r = false) :
      Moves (.lookup x email h) ⟨.get (markerKey D h.row.familyId), r⟩ (.access x email h)
  | access {x : Ctx} {email : String} {h : Held} {signed : ℕ} :
      Moves (.access x email h) ⟨.utcNow, signed⟩ (.mint x email h signed)
  | mint {x : Ctx} {email : String} {h : Held} {signed : ℕ} {id : Uuid} :
      Moves (.mint x email h signed) ⟨.nowV7, id⟩ (.refresh x email h signed id)
  | refresh {x : Ctx} {email : String} {h : Held} {signed : ℕ} {id : Uuid} {now : ℕ} :
      Moves (.refresh x email h signed id) ⟨.utcNow, now⟩ (.created x email h signed id now)
  | used {x : Ctx} {email : String} {h : Held} {signed : ℕ} {id : Uuid} {refreshed now : ℕ}
      (used : h.row.usedAt ≠ none) :
      Moves (.created x email h signed id refreshed) ⟨.utcNow, now⟩ (.revokeStamp x h)
  | drafted {x : Ctx} {d : Draft} :
      Moves (.created x d.email d.held d.signed d.id d.refreshed) ⟨.utcNow, d.created⟩ (.store x d)
  | stored {x : Ctx} {d : Draft} :
      Moves (.store x d) ⟨.put (rowKey D d.id) (.token d.successor), .ok ()⟩ (.stamp x d)
  | storeFailed {x : Ctx} {d : Draft} {e : FabricError} :
      Moves (.store x d) ⟨.put (rowKey D d.id) (.token d.successor), .error e⟩
        (.settle x (.unavailable d.held))
  | stamp {x : Ctx} {d : Draft} {now : ℕ} : Moves (.stamp x d) ⟨.utcNow, now⟩ (.mark x d now)
  | marked {x : Ctx} {d : Draft} {now : ℕ} :
      Moves (.mark x d now)
        ⟨.updateIf (rowKey D d.held.row.id) (.token (d.replaced now)) d.held.revision, .ok ()⟩
        (.settle x (.granted d))
  | conflict {x : Ctx} {d : Draft} {now : ℕ} :
      Moves (.mark x d now)
        ⟨.updateIf (rowKey D d.held.row.id) (.token (d.replaced now)) d.held.revision,
          .error .RevisionConflict⟩ (.revokeStamp x d.held)
  | markFailed {x : Ctx} {d : Draft} {now : ℕ} {e : FabricError} (other : e ≠ .RevisionConflict) :
      Moves (.mark x d now)
        ⟨.updateIf (rowKey D d.held.row.id) (.token (d.replaced now)) d.held.revision, .error e⟩
        (.settle x (.unavailable d.held))
  | revokeStamp {x : Ctx} {h : Held} {now : ℕ} :
      Moves (.revokeStamp x h) ⟨.utcNow, now⟩ (.revoke x h now)
  | revoke {x : Ctx} {h : Held} {now : ℕ} {r : Except FabricError Unit} :
      Moves (.revoke x h now) ⟨.put (markerKey D h.row.familyId) (.revoked ⟨now⟩), r⟩
        (.settle x (.reuse h))
  | session {x : Ctx} {o : Outcome} {sid : Uuid} :
      Moves (.settle x o) ⟨.nowV7, sid⟩ (.done x o sid)
  | replySession {s : Option String} {n : Notice} {sid : Uuid} :
      Moves (.reply s n) ⟨.nowV7, sid⟩ (.replied n sid)
  | checked {s : Option String} {token : String} {jwt : Option String} {now : ℕ} {n : Notice}
      (other : ¬ (S.jwt.accessVerdict D token now = .error .Expired ∧
        S.authCheckSilentRefresh = true ∧ jwt.isSome)) :
      Moves (.accessVerify s token jwt) ⟨.utcNow, now⟩ (.reply s n)
  | silent {s : Option String} {token jwt : String} {now : ℕ}
      (verdict : S.jwt.accessVerdict D token now = .error .Expired)
      (on : S.authCheckSilentRefresh = true) :
      Moves (.accessVerify s token (some jwt)) ⟨.utcNow, now⟩ (.verify ⟨.check, s⟩ jwt)
  | bearer {token : String} {r : Except String (Option BearerEntry)} {n : Notice} :
      Moves (.bearer token) ⟨.resolve token, r⟩ (.closed n)
  | logoutSkip {jwt : String} {now : ℕ} :
      Moves (.logoutVerify jwt) ⟨.utcNow, now⟩ (.logoutDone none)
  | logoutVerified {jwt : String} {now : ℕ} {claims : RefreshClaims} {jti : Uuid}
      (verdict : S.jwt.refreshVerdict D jwt now = .ok claims)
      (parsed : D.parseStr claims.jti = some jti) :
      Moves (.logoutVerify jwt) ⟨.utcNow, now⟩ (.logoutFind jti)
  | logoutMissing {jti : Uuid} {r : Except FabricError (Option (Entry × Revision))}
      (absent : ∀ row rev, r ≠ .ok (some (.token row, rev))) :
      Moves (.logoutFind jti) ⟨.get (rowKey D jti), r⟩ (.logoutDone none)
  | logoutFound {jti : Uuid} {row : RefreshToken} {rev : Revision} :
      Moves (.logoutFind jti) ⟨.get (rowKey D jti), .ok (some (.token row, rev))⟩
        (.logoutStamp ⟨row, rev⟩)
  | logoutStamp {h : Held} {now : ℕ} :
      Moves (.logoutStamp h) ⟨.utcNow, now⟩ (.logoutRevoke h now)
  | logoutRevoke {h : Held} {now : ℕ} {r : Except FabricError Unit} :
      Moves (.logoutRevoke h now) ⟨.put (markerKey D h.row.familyId) (.revoked ⟨now⟩), r⟩
        (.logoutDone (some h))
  | loginRefused {s : Option String} {idToken : String} {r : Except String OidcClaims}
      {n : Notice} : Moves (.login s idToken) ⟨.verifyIdToken idToken, r⟩ (.closed n)
  | login {s : Option String} {idToken : String} {claims : OidcClaims} :
      Moves (.login s idToken) ⟨.verifyIdToken idToken, .ok claims⟩ (.loginAccess s claims.email)
  | loginAccess {s : Option String} {email : String} {signed : ℕ} :
      Moves (.loginAccess s email) ⟨.utcNow, signed⟩ (.loginMint s email signed)
  | loginMint {s : Option String} {email : String} {signed : ℕ} {id : Uuid} :
      Moves (.loginMint s email signed) ⟨.nowV7, id⟩ (.loginRefresh s email signed id)
  | loginRefresh {s : Option String} {email : String} {signed : ℕ} {id : Uuid} {now : ℕ} :
      Moves (.loginRefresh s email signed id) ⟨.utcNow, now⟩ (.loginFamily s email signed id now)
  | loginFamily {s : Option String} {email : String} {signed refreshed : ℕ} {id family : Uuid} :
      Moves (.loginFamily s email signed id refreshed) ⟨.nowV7, family⟩
        (.loginCreated s email signed id refreshed family)
  | loginCreated {s : Option String} {email : String} {signed refreshed now : ℕ}
      {id family : Uuid} :
      Moves (.loginCreated s email signed id refreshed family) ⟨.utcNow, now⟩
        (.loginStore s ⟨email, signed, id, refreshed, family, now⟩)
  | loginStored {s : Option String} {p : Opening} :
      Moves (.loginStore s p) ⟨.put (rowKey D p.id) (.token p.row), .ok ()⟩
        (.settle ⟨.token, s⟩ (.opened p))
  | loginFailed {s : Option String} {p : Opening} {e : FabricError} {n : Notice} :
      Moves (.loginStore s p) ⟨.put (rowKey D p.id) (.token p.row), .error e⟩ (.closed n)

/-- The moves are all there is: whatever answer a phase gets, it moves by one of them. -/
theorem moves_of_view {ph : Phase} {o : Op} {k : o.Reply → Phase}
    (h : view D S ph = .inr ⟨o, k⟩) (r : o.Reply) : Moves D S ph ⟨o, r⟩ (k r) := by
  cases ph with
  | verify x jwt =>
    cases h
    simp only
    cases hverdict : S.jwt.refreshVerdict D jwt r with
    | error e =>
      cases e with
      | Expired => exact .expired hverdict
      | Invalid message =>
        refine .invalid fun claims jti hok => ?_
        rw [hverdict] at hok
        cases hok
    | ok claims =>
      simp only
      cases hjti : D.parseStr claims.jti with
      | none =>
        refine .invalid fun claims' jti hok => ?_
        rw [hverdict] at hok
        cases hok
        simp [hjti]
      | some jti => exact .verified hverdict hjti
  | find x email jti =>
    cases h
    rcases r with e | _ | ⟨row | m, rev⟩
    · exact .unread
    · exact .missing
    · exact .found
    · exact .misread
  | lookup x email held =>
    cases h
    simp only
    cases hread : markerRead r with
    | false => exact .clear hread
    | true =>
      rcases r with e | _ | ⟨row | m, rev⟩
      · cases hread
      · cases hread
      · cases hread
      · exact .revoked
  | access x email held => cases h; exact .access
  | mint x email held signed => cases h; exact .mint
  | refresh x email held signed id => cases h; exact .refresh
  | created x email held signed id refreshed =>
    cases h
    by_cases unused : held.row.usedAt = none
    · simp only [beginRotate, dif_pos unused]
      exact .drafted (d := ⟨held, unused, email, signed, id, refreshed, r⟩)
    · simp only [beginRotate, dif_neg unused]
      exact .used unused
  | store x d =>
    cases h
    rcases r with e | _
    · exact .storeFailed
    · exact .stored
  | stamp x d => cases h; exact .stamp
  | mark x d now =>
    cases h
    rcases r with e | _
    · cases e with
      | RevisionConflict => exact .conflict
      | Decode => exact .markFailed (by decide)
      | Unavailable => exact .markFailed (by decide)
    · exact .marked
  | revokeStamp x held => cases h; exact .revokeStamp
  | revoke x held now => cases h; exact .revoke
  | settle x o =>
    by_cases hs : x.session.isSome
    · simp [view, hs] at h
    · simp only [view, if_neg hs] at h
      cases h
      exact .session
  | done x o sid => cases h
  | reply session n =>
    by_cases hs : session.isSome
    · simp [view, hs] at h
    · simp only [view, if_neg hs] at h
      cases h
      exact .replySession
  | replied n sid => cases h
  | closed n => cases h
  | accessVerify session token refresh =>
    cases h
    simp only
    cases hverdict : S.jwt.accessVerdict D token r with
    | ok claims => exact .checked (by simp [hverdict])
    | error e =>
      cases hon : S.authCheckSilentRefresh with
      | false => cases e <;> exact .checked (by simp [hon])
      | true =>
        cases e with
        | Invalid message => exact .checked (by simp [hverdict])
        | Expired =>
          cases refresh with
          | none => exact .checked (by simp)
          | some jwt => exact .silent hverdict hon
  | bearer token =>
    cases h
    rcases r with e | _ | entry <;> exact .bearer
  | logoutVerify jwt =>
    cases h
    simp only
    cases hverdict : S.jwt.refreshVerdict D jwt r with
    | error e => exact .logoutSkip
    | ok claims =>
      simp only
      cases hjti : D.parseStr claims.jti with
      | none => exact .logoutSkip
      | some jti => exact .logoutVerified hverdict hjti
  | logoutFind jti =>
    cases h
    rcases r with e | _ | ⟨row | m, rev⟩
    · exact .logoutMissing (by simp)
    · exact .logoutMissing (by simp)
    · exact .logoutFound
    · exact .logoutMissing (by simp)
  | logoutStamp held => cases h; exact .logoutStamp
  | logoutRevoke held now => cases h; exact .logoutRevoke
  | logoutDone seen => cases h
  | login session idToken =>
    cases h
    cases r with
    | error message => exact .loginRefused
    | ok claims =>
      by_cases hempty : claims.email.isEmpty
      · simp only [if_pos hempty]
        exact .loginRefused
      · simp only [if_neg hempty]
        exact .login
  | loginAccess session email => cases h; exact .loginAccess
  | loginMint session email signed => cases h; exact .loginMint
  | loginRefresh session email signed id => cases h; exact .loginRefresh
  | loginFamily session email signed id refreshed => cases h; exact .loginFamily
  | loginCreated session email signed id refreshed family => cases h; exact .loginCreated
  | loginStore session p =>
    cases h
    rcases r with e | _
    · exact .loginFailed
    · exact .loginStored

end SvcAuth
