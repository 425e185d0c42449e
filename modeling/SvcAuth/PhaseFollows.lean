import SvcAuth.Phases
import SvcAuth.Renewal

/-! Every handler follows the phases call by call, so a run of the service and a run of
the phases have the same labels, the same world and the same responses. -/
namespace SvcAuth
open Interleave RefreshTokenStore

variable (D : Deps) (S : AppState)

theorem follows_session (r : Response) (session : Option String) (ph : Phase) (next : Uuid → Phase)
    (hview : view D S ph =
      if session.isSome then .inl r else wait .nowV7 next)
    (hnext : ∀ sid, view D S (next sid) = .inl (withSession D S r sid)) :
    Follows (machine D S) (appendSessionCookieIfNeeded D S r session) ph := by
  unfold appendSessionCookieIfNeeded
  cases session with
  | some s => exact .ret (by simpa using hview)
  | none => exact .call (by simpa [wait] using hview) fun sid => .ret (hnext sid)

theorem follows_settle (x : Ctx) (o : Outcome) {r : Response} (hr : r = respond D S x o) :
    Follows (machine D S) (appendSessionCookieIfNeeded D S r x.session) (.settle x o) := by
  subst hr
  exact follows_session D S _ _ _ (fun sid => .done x o sid) rfl fun _ => rfl

theorem follows_reply (session : Option String) (n : Notice) {r : Response} (hr : r = n.render D S) :
    Follows (machine D S) (appendSessionCookieIfNeeded D S r session) (.reply session n) := by
  subst hr
  exact follows_session D S _ _ _ (fun sid => .replied n sid) rfl fun _ => rfl

/-- `rotate` follows its phases, given that what comes after it follows the outcome. -/
theorem follows_rotate (x : Ctx) (email : String) (h : Held) (signed : ℕ) (id : Uuid)
    (refreshed created : ℕ) {k : Except RotationError Unit → Action Response}
    (hok : ∀ unused, Follows (machine D S) (k (.ok ()))
      (.settle x (.granted ⟨h, unused, email, signed, id, refreshed, created⟩)))
    (hreuse : Follows (machine D S) (k (.error (.Reuse h.row.familyId))) (.settle x (.reuse h)))
    (hstore : ∀ e, Follows (machine D S) (k (.error (.Store e))) (.settle x (.unavailable h))) :
    Follows (machine D S)
      (rotate D h.row h.revision ⟨id, email, h.row.familyId, none, none, created⟩ >>= k)
      (beginRotate x email h signed id refreshed created) := by
  unfold beginRotate
  by_cases unused : h.row.usedAt = none
  · rw [dif_pos unused, rotate_unused (by simp [unused])]
    refine .call rfl fun stored => ?_
    cases stored with
    | error e => exact hstore _
    | ok _ =>
      refine .call rfl fun now => .call rfl fun marked => ?_
      cases marked with
      | ok _ => exact hok unused
      | error e =>
        cases e with
        | RevisionConflict => exact .call rfl fun now => .call rfl fun _ => hreuse
        | Decode => exact hstore _
        | Unavailable => exact hstore _
  · rw [dif_neg unused, rotate_used (Option.isSome_iff_ne_none.mpr unused)]
    exact .call rfl fun now => .call rfl fun _ => hreuse

/-- Both paths answer this result of a renewal as they answer the outcome. -/
def Settles (o : Outcome) (r : Renewed) : Prop :=
  ∀ session, refreshAnswer S r = respond D S ⟨.refresh, session⟩ o ∧
    checkAnswer S r = respond D S ⟨.check, session⟩ o

theorem follows_renewal (x : Ctx) (jwt : String) {k : Renewed → Action Response}
    (hk : ∀ o r, Settles D S o r → Follows (machine D S) (k r) (.settle x o)) :
    Follows (machine D S) (renewal D S id jwt >>= k) (.verify x jwt) := by
  rw [renewal_eq, Prog.call_bind]
  refine .call rfl fun now => ?_
  cases S.jwt.refreshVerdict D jwt now with
  | error e =>
    cases e with
    | Expired => exact hk (.expired jwt now) _ fun _ => ⟨rfl, rfl⟩
    | Invalid message => exact hk (.invalid jwt now) _ fun _ => ⟨rfl, rfl⟩
  | ok claims =>
    simp only
    cases D.parseStr claims.jti with
    | none => exact hk (.invalid jwt now) _ fun _ => ⟨rfl, rfl⟩
    | some jti =>
      simp only [Prog.call_bind]
      refine .call rfl fun found => ?_
      rcases rowRead found with e | _ | ⟨row, revision⟩
      · exact hk (.unread jti) _ fun _ => ⟨rfl, rfl⟩
      · exact hk (.missing jti) _ fun _ => ⟨rfl, rfl⟩
      · simp only [Prog.call_bind]
        refine .call rfl fun looked => ?_
        cases markerRead looked with
        | true => exact hk (.revoked ⟨row, revision⟩) _ fun _ => ⟨rfl, rfl⟩
        | false =>
          rw [if_neg Bool.false_ne_true, if_neg Bool.false_ne_true]
          simp only [Prog.call_bind, Prog.bind_assoc]
          refine .call rfl fun signed => .call rfl fun id => .call rfl fun refreshed => ?_
          refine .call rfl fun created => ?_
          refine follows_rotate D S _ _ ⟨row, revision⟩ _ _ _ _ ?_ ?_ ?_
          · intro unused
            exact hk (.granted _) _ fun _ => ⟨rfl, rfl⟩
          · exact hk (.reuse ⟨row, revision⟩) _ fun _ => ⟨rfl, rfl⟩
          · intro e
            exact hk (.unavailable ⟨row, revision⟩) _ fun _ => ⟨rfl, rfl⟩

theorem follows_refreshHandler (headers : HeaderMap) (body : Option RefreshRequest) :
    Follows (machine D S) (refreshHandler D S headers body) (startRefresh D S headers body) := by
  unfold startRefresh
  cases hjwt : resolveRefreshToken S (body.getD ⟨none⟩) headers with
  | none =>
    unfold refreshHandler handleRefresh
    simp only [hjwt]
    exact follows_reply D S _ .noSession rfl
  | some jwt =>
    rw [refreshHandler_eq hjwt]
    refine follows_renewal D S ⟨.refresh, _⟩ jwt fun o r hr => ?_
    exact follows_settle D S ⟨.refresh, _⟩ o (hr _).1

theorem follows_authCheckHandler (headers : HeaderMap) :
    Follows (machine D S) (authCheckHandler D S headers) (startCheck D S headers) := by
  unfold authCheckHandler startCheck
  cases extractAccessCookie headers S.cookieConfig with
  | none =>
    simp only
    cases headers.authorization >>= HeaderValue.toStr with
    | none => exact follows_reply D S _ (.status 200) rfl
    | some authValue =>
      simp only [handleBearer]
      refine .call rfl fun found => ?_
      rcases found with e | _ | entry
      · exact .ret rfl
      · exact .ret rfl
      · exact .ret rfl
  | some token =>
    simp only [handleJwtCookie]
    rw [Prog.bind_assoc, JwtService.verifyAccessToken_bind]
    refine .call rfl fun now => ?_
    cases S.jwt.accessVerdict D token now with
    | ok claims => exact follows_reply D S _ (.status 200) rfl
    | error e =>
      cases hsilent : S.authCheckSilentRefresh with
      | false =>
        cases e with
        | Expired => exact follows_reply D S _ (.status 401) rfl
        | Invalid message => exact follows_reply D S _ (.status 401) rfl
      | true =>
        cases e with
        | Invalid message => exact follows_reply D S _ .clearBoth rfl
        | Expired =>
          simp only [if_true]
          cases hjwt : extractRefreshCookie headers S.cookieConfig with
          | none =>
            unfold silentRefresh
            rw [hjwt]
            exact follows_reply D S _ .clearAccess rfl
          | some jwt =>
            rw [silentRefresh_eq hjwt, Prog.bind_assoc]
            refine follows_renewal D S ⟨.check, _⟩ jwt fun o r hr => ?_
            exact follows_settle D S ⟨.check, _⟩ o (hr _).2

theorem follows_logoutHandler (headers : HeaderMap) :
    Follows (machine D S) (logoutHandler D S headers) (startLogout S headers) := by
  unfold logoutHandler logoutRevocation startLogout
  cases extractRefreshCookie headers S.cookieConfig with
  | none => exact .ret rfl
  | some jwt =>
    rw [Prog.bind_assoc, JwtService.verifyRefreshToken_bind]
    refine .call rfl fun now => ?_
    cases S.jwt.refreshVerdict D jwt now with
    | error e => exact .ret rfl
    | ok claims =>
      simp only
      cases D.parseStr claims.jti with
      | none => exact .ret rfl
      | some jti =>
        simp only
        rw [Prog.bind_assoc, findById_bind]
        refine .call rfl fun found => ?_
        rcases rowRead found with e | _ | ⟨row, revision⟩
        · exact .ret rfl
        · exact .ret rfl
        · simp only
          rw [Prog.bind_assoc, revokeFamily_bind]
          exact .call rfl fun now => .call rfl fun _ => .ret rfl

theorem follows_tokenHandler (headers : HeaderMap) (body : Option TokenRequest) :
    Follows (machine D S) (tokenHandler D S headers body) (startToken D S headers body) := by
  unfold tokenHandler startToken
  rcases body with _ | ⟨_ | grantType, idToken⟩
  · exact .ret rfl
  · exact .ret rfl
  · simp only [handleToken]
    by_cases hgrant : grantType = "id_token"
    · rw [if_neg (not_not.mpr hgrant), if_neg (not_not.mpr hgrant)]
      cases idToken.filter fun t => !t.isEmpty with
      | none => exact .ret rfl
      | some idToken =>
        simp only
        rw [Prog.bind_assoc, Prog.op_bind]
        refine .call rfl fun verified => ?_
        cases verified with
        | error message => exact .ret rfl
        | ok claims =>
          simp only
          cases claims.email.isEmpty with
          | true => exact .ret rfl
          | false =>
            rw [if_neg Bool.false_ne_true, if_neg Bool.false_ne_true, Prog.bind_assoc,
              JwtService.signAccessToken_bind]
            refine .call rfl fun signed => ?_
            simp only
            rw [Prog.bind_assoc, JwtService.signRefreshToken_bind]
            refine .call rfl fun id => .call rfl fun refreshed => ?_
            simp only
            rw [Prog.bind_assoc, nowV7_bind]
            refine .call rfl fun family => ?_
            rw [Prog.bind_assoc, utcNow_bind]
            refine .call rfl fun created => ?_
            rw [Prog.bind_assoc, store_bind]
            refine .call rfl fun stored => ?_
            cases stored with
            | error e => exact .ret rfl
            | ok _ =>
              exact follows_settle D S ⟨.token, _⟩
                (.opened ⟨claims.email, signed, id, refreshed, family, created⟩) rfl
    · rw [if_pos hgrant, if_pos hgrant]
      exact .ret rfl

theorem follows_serve (q : Request) : Follows (machine D S) (serve D S q) (start D S q) := by
  cases q with
  | token headers body => exact follows_tokenHandler D S headers body
  | refresh headers body => exact follows_refreshHandler D S headers body
  | check headers => exact follows_authCheckHandler D S headers
  | logout headers => exact follows_logoutHandler D S headers

section Transfer
variable {D S} {G : Assumption} {c c' : ServiceState} {d d' : PhaseState} {ls : List Event}

/-- The same world, and every handler where its phase says it is. -/
abbrev Mirrors (D : Deps) (S : AppState) (c : ServiceState) (d : PhaseState) : Prop :=
  Related (M := Prog.machine Calls Response) (N := machine D S) (Follows (machine D S)) c d

theorem mirrors_initial (w : World) : Mirrors D S (.initial w) (.initial w) :=
  ⟨rfl, fun _ => .none⟩

theorem Segment.phases (hm : Mirrors D S c d) (h : Segment D S G c ls c') :
    ∃ d', PhaseSegment D S G d ls d' ∧ Mirrors D S c' d' :=
  Trace.simulated (follows_simulates (machine D S)) (follows_serve D S) hm h

theorem PhaseSegment.service (hm : Mirrors D S c d) (h : PhaseSegment D S G d ls d') :
    ∃ c', Segment D S G c ls c' ∧ Mirrors D S c' d' := by
  obtain ⟨c', hrun, hrel⟩ := Trace.simulated (follows_simulates (machine D S)).symm
    (follows_serve D S) hm.symm h
  exact ⟨c', hrun, hrel.symm⟩

theorem Mirrors.response (hm : Mirrors D S c d) (t : ℕ) :
    c.response t = d.result (machine D S) t :=
  congrFun (hm.result (follows_simulates (machine D S))) t

end Transfer

end SvcAuth
