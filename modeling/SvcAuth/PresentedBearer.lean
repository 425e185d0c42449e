import SvcAuth.RotationPaths
import SvcAuth.SampleDeployment

/-! What a `200` of `/auth/check` means for a request that presents an `Authorization`
header: a valid access token, a rotation, or a resolved bearer, but for the two ways in
which the handler never gets to the header. -/
namespace SvcAuth
open Interleave RefreshTokenStore

section Renewal
variable {D : Deps} {S : AppState} {jwt : String} {tr : List Calls.Event} {row : RefreshToken}

/-- The refresh token verified, and this is its row as it was read. -/
def Looked (D : Deps) (S : AppState) (jwt : String) (tr : List Calls.Event) (row : RefreshToken) :
    Prop :=
  ∃ now claims jti revision, (⟨.utcNow, now⟩ : Calls.Event) ∈ tr ∧
    S.jwt.refreshVerdict D jwt now = .ok claims ∧ D.parseStr claims.jti = some jti ∧
    (⟨.get (rowKey D jti), .ok (some (.token row, revision))⟩ : Calls.Event) ∈ tr

/-- A renewal that succeeds wrote the row of its token back; in one that fails no revision
check went through. -/
theorem renewal_cases {r : Renewed} (h : Prog.Ran (renewal D S id jwt) tr r) :
    (∃ access refresh row, r = .ok (access, refresh) ∧ access ≠ "" ∧ refresh ≠ "" ∧
      Looked D S jwt tr row ∧ WroteBack D row tr) ∨ (∃ e, r = .error e) ∧ ¬ Acked tr := by
  cases renewal_ran h with
  | refused => exact .inr ⟨⟨_, rfl⟩, not_acked (by simp [Op.checks])⟩
  | unread => exact .inr ⟨⟨_, rfl⟩, not_acked (by simp [Op.checks])⟩
  | absent => exact .inr ⟨⟨_, rfl⟩, not_acked (by simp [Op.checks])⟩
  | revoked => exact .inr ⟨⟨_, rfl⟩, not_acked (by simp [Op.checks])⟩
  | @rotating now signed refreshed created claims id newId row revision looked rest rotated
      accepted unmarked rotate =>
    rcases rotate_cases rotate with ⟨rfl, v, rev, hv⟩ | ⟨hfailed, hnone⟩
    · refine .inl ⟨_, _, row, rfl, S.jwt.accessToken_ne_empty D _ _,
        S.jwt.refreshToken_ne_empty D _ _ _, ⟨now, claims, id, revision, ?_⟩, v, rev, ?_⟩
      · exact ⟨.head _, accepted.1, accepted.2, .tail _ (.head _)⟩
      · simp [hv]
    · have hbefore : ¬ Acked ([⟨.utcNow, now⟩, ⟨.get (rowKey D id), .ok (some (.token row, revision))⟩,
          ⟨.get (markerKey D row.familyId), looked⟩, ⟨.utcNow, signed⟩, ⟨.nowV7, newId⟩,
          ⟨.utcNow, refreshed⟩, ⟨.utcNow, created⟩] ++ rest) := by
        rw [acked_append]
        exact not_or.mpr ⟨not_acked (by simp [Op.checks]), hnone⟩
      refine .inr ⟨?_, hbefore⟩
      rcases rotated with (_ | _) | _
      · exact ⟨_, rfl⟩
      · exact ⟨_, rfl⟩
      · exact absurd rfl hfailed

end Renewal

section Check

/-- The access cookie was a valid access token by the clock. -/
def ValidAccess (D : Deps) (S : AppState) (headers : HeaderMap) (tr : List Calls.Event) : Prop :=
  ∃ token now rest claims, extractAccessCookie headers S.cookieConfig = some token ∧
    tr = ⟨.utcNow, now⟩ :: rest ∧ S.jwt.accessVerdict D token now = .ok claims

/-- A silent refresh rotated the presented refresh token: it verified, its row was found and
written back as replaced, and the response carries the tokens that replace it. -/
def Refreshed (D : Deps) (S : AppState) (headers : HeaderMap) (tr : List Calls.Event)
    (r : Response) : Prop :=
  ∃ jwt row, extractRefreshCookie headers S.cookieConfig = some jwt ∧ Looked D S jwt tr row ∧
    WroteBack D row tr ∧ r.Rotated S

def actorHeader : Actor → String
  | .Human _ => "x-auth-user-id"
  | .Service _ => "x-auth-service-account-id"

/-- The presented token resolved to an entry, and the response names its actor and token. -/
def Resolved (D : Deps) (v : HeaderValue) (tr : List Calls.Event) (r : Response) : Prop :=
  ∃ value entry, v.toStr = some value ∧
    (⟨.resolve (stripBearer value), .ok (some entry)⟩ : Calls.Event) ∈ tr ∧
    r.headers = [(actorHeader entry.actor, D.uuidToString entry.actor.id),
      ("x-auth-token-id", D.uuidToString entry.tokenId)]

/-- Either there is no access cookie and the header's bytes are text, or the cookie alone
settles the matter: silent refresh is off, the token is valid by the clock, or it expired
and the store acknowledged the check of the presented refresh token's revision. -/
def Settled (D : Deps) (S : AppState) (headers : HeaderMap) (v : HeaderValue)
    (tr : List Calls.Event) : Prop :=
  match extractAccessCookie headers S.cookieConfig with
  | none => v.toStr.isSome
  | some token => S.authCheckSilentRefresh = false ∨ ∃ now rest, tr = ⟨.utcNow, now⟩ :: rest ∧
      ((∃ claims, S.jwt.accessVerdict D token now = .ok claims) ∨
        S.jwt.accessVerdict D token now = .error .Expired ∧ Acked tr)

variable {D : Deps} {S : AppState} {headers : HeaderMap} {v : HeaderValue}
  {tr : List Calls.Event} {r : Response}

theorem not_resolved (h : r.headers = []) : ¬ Resolved D v tr r := by
  rintro ⟨value, entry, -, -, hheaders⟩
  rw [h] at hheaders
  cases hheaders

theorem not_refreshed (h : ¬ Acked tr) : ¬ Refreshed D S headers tr r := by
  rintro ⟨jwt, row, -, -, hwrote, -⟩
  exact h hwrote.acked

theorem not_validAccess {token : String} {now : ℕ} {rest : List Calls.Event} {e : JwtError}
    (htoken : extractAccessCookie headers S.cookieConfig = some token)
    (htr : tr = ⟨.utcNow, now⟩ :: rest) (h : S.jwt.accessVerdict D token now = .error e) :
    ¬ ValidAccess D S headers tr := by
  rintro ⟨token', now', rest', claims, htoken', htr', h'⟩
  rw [htoken] at htoken'
  cases htoken'
  rw [htr] at htr'
  cases htr'
  rw [h] at h'
  cases h'

theorem handleBearer_ran {value : String} (hv : v.toStr = some value)
    (h : Prog.Ran (handleBearer D value) tr r) : r.status = 200 → Resolved D v tr r := by
  unfold handleBearer at h
  rw [Prog.op_bind] at h
  obtain ⟨answer, tr, rfl, h₁⟩ := Prog.ran_call.mp h
  rcases answer with e | _ | entry
  · obtain ⟨rfl, rfl⟩ := Prog.ran_ret.mp h₁
    intro hstatus
    cases hstatus
  · obtain ⟨rfl, rfl⟩ := Prog.ran_ret.mp h₁
    intro hstatus
    cases hstatus
  · obtain ⟨rfl, rfl⟩ := Prog.ran_ret.mp h₁
    intro _
    refine ⟨value, entry, hv, .head _, ?_⟩
    obtain ⟨actor, tokenId⟩ := entry
    cases actor <;> rfl

/-- What the session id adds to a response is a cookie. -/
theorem session_unacked {plain : Response} {session : Option String}
    (h : Prog.Ran (appendSessionCookieIfNeeded D S plain session) tr r) :
    ¬ Acked tr ∧ r.status = plain.status ∧ r.headers = plain.headers ∧
      ∃ rest, r.setCookie = plain.setCookie ++ rest := by
  rcases session_ran h with ⟨rfl, rfl⟩ | ⟨sid, rfl, rfl⟩
  · exact ⟨not_acked_nil, rfl, rfl, [], (List.append_nil _).symm⟩
  · exact ⟨not_acked (by simp [Op.checks]), rfl, rfl, _, rfl⟩

theorem Looked.mono {jwt : String} {row : RefreshToken} {tr' : List Calls.Event}
    (h : Looked D S jwt tr row) (hsub : tr ⊆ tr') : Looked D S jwt tr' row := by
  obtain ⟨now, claims, jti, revision, hnow, hverdict, hjti, hget⟩ := h
  exact ⟨now, claims, jti, revision, hsub hnow, hverdict, hjti, hsub hget⟩

theorem WroteBack.mono {row : RefreshToken} {tr' : List Calls.Event} (h : WroteBack D row tr)
    (hsub : tr ⊆ tr') : WroteBack D row tr' := by
  obtain ⟨v, rev, hv⟩ := h
  exact ⟨v, rev, hsub hv⟩

/-- A silent refresh passes either way; if a revision check went through it did rotate. -/
theorem silentRefresh_ran {plain : Response} (h : Prog.Ran (silentRefresh D S headers) tr plain) :
    plain.status = 200 ∧ plain.headers = [] ∧
      (Acked tr → Refreshed D S headers tr plain) := by
  cases hjwt : extractRefreshCookie headers S.cookieConfig with
  | none =>
    unfold silentRefresh at h
    rw [hjwt] at h
    obtain ⟨rfl, rfl⟩ := Prog.ran_ret.mp h
    exact ⟨rfl, rfl, fun hacked => absurd hacked not_acked_nil⟩
  | some jwt =>
    rw [silentRefresh_eq hjwt] at h
    obtain ⟨renewed, t₁, t₂, rfl, hrenewal, h₁⟩ := Prog.ran_bind.mp h
    obtain ⟨rfl, rfl⟩ := Prog.ran_ret.mp h₁
    rw [List.append_nil]
    rcases renewal_cases hrenewal with
      ⟨access, refresh, row, rfl, haccess, hrefresh, hlooked, hwrote⟩ | ⟨⟨e, rfl⟩, hnone⟩
    · refine ⟨rfl, rfl, fun _ => ⟨jwt, row, hjwt, hlooked, hwrote, access, refresh, haccess,
        hrefresh, ?_, ?_⟩⟩
      · exact ⟨buildAccessCookie access S.cookieConfig, .head _, rfl, rfl⟩
      · exact ⟨buildRefreshCookie refresh S.cookieConfig, .tail _ (.head _), rfl, rfl⟩
    · exact ⟨rfl, rfl, fun hacked => absurd hacked hnone⟩

theorem Refreshed.later {plain : Response} {tr' : List Calls.Event} {rest : List SetCookie}
    (h : Refreshed D S headers tr plain) (hsub : tr ⊆ tr')
    (hcookies : r.setCookie = plain.setCookie ++ rest) : Refreshed D S headers tr' r := by
  obtain ⟨jwt, row, hjwt, hlooked, hwrote, access, refresh, haccess, hrefresh, hset, hset'⟩ := h
  have hmore : ∀ {name value : String}, plain.Sets name value → r.Sets name value := by
    rintro name value ⟨cookie, hc, hcookie⟩
    exact ⟨cookie, hcookies ▸ List.mem_append_left _ hc, hcookie⟩
  exact ⟨jwt, row, hjwt, hlooked.mono hsub, hwrote.mono hsub, access, refresh, haccess, hrefresh,
    hmore hset, hmore hset'⟩

/-- With an access cookie the clock is read first, and the cookie settles the answer. -/
theorem cookie_ran {token : String}
    (htoken : extractAccessCookie headers S.cookieConfig = some token)
    (h : Prog.Ran (authCheckHandler D S headers) tr r) :
    ∃ now rest, tr = ⟨.utcNow, now⟩ :: rest ∧ r.headers = [] ∧
      match S.jwt.accessVerdict D token now with
      | .ok _ => r.status = 200
      | .error .Expired =>
        if S.authCheckSilentRefresh then
          r.status = 200 ∧ (Acked tr → Refreshed D S headers tr r)
        else r.status = 401
      | .error (.Invalid _) =>
        if S.authCheckSilentRefresh then r.status = 200 ∧ ¬ Acked tr else r.status = 401 := by
  unfold authCheckHandler at h
  rw [htoken] at h
  simp only at h
  obtain ⟨plain, t₁, t₂, rfl, hcookie, hsession⟩ := Prog.ran_bind.mp h
  obtain ⟨hquiet, hstatus, hheaders, rest, hcookies⟩ := session_unacked hsession
  unfold handleJwtCookie at hcookie
  rw [JwtService.verifyAccessToken_bind] at hcookie
  obtain ⟨now, t₁, rfl, h₁⟩ := Prog.ran_call.mp hcookie
  refine ⟨now, t₁ ++ t₂, rfl, ?_⟩
  have hplain : Acked (⟨.utcNow, now⟩ :: (t₁ ++ t₂)) ↔ Acked t₁ := by
    rw [acked_call rfl, acked_append]
    exact or_iff_left hquiet
  have hsub : t₁ ⊆ ⟨.utcNow, now⟩ :: (t₁ ++ t₂) := fun e he =>
    .tail _ (List.mem_append_left _ he)
  rw [hstatus, hheaders, List.cons_append, hplain]
  rcases hverdict : S.jwt.accessVerdict D token now with (_ | _) | claims <;>
    simp only [hverdict] at h₁
  · by_cases hon : S.authCheckSilentRefresh = true
    · rw [if_pos hon] at h₁
      simp only [if_pos hon]
      obtain ⟨hok, hnone, hrefreshed⟩ := silentRefresh_ran h₁
      exact ⟨hnone, hok, fun hacked => (hrefreshed hacked).later hsub hcookies⟩
    · rw [if_neg hon] at h₁
      simp only [if_neg hon]
      obtain ⟨rfl, rfl⟩ := Prog.ran_ret.mp h₁
      exact ⟨rfl, rfl⟩
  · by_cases hon : S.authCheckSilentRefresh = true
    · rw [if_pos hon] at h₁
      simp only [if_pos hon]
      obtain ⟨rfl, rfl⟩ := Prog.ran_ret.mp h₁
      exact ⟨rfl, rfl, not_acked_nil⟩
    · rw [if_neg hon] at h₁
      simp only [if_neg hon]
      obtain ⟨rfl, rfl⟩ := Prog.ran_ret.mp h₁
      exact ⟨rfl, rfl⟩
  · obtain ⟨rfl, rfl⟩ := Prog.ran_ret.mp h₁
    exact ⟨rfl, rfl⟩

/-- Without an access cookie a `200` means what it should exactly when the header is text. -/
theorem bare_settled_iff (hauth : headers.authorization = some v)
    (htoken : extractAccessCookie headers S.cookieConfig = none)
    (h : Prog.Ran (authCheckHandler D S headers) tr r) :
    (r.status = 200 → ValidAccess D S headers tr ∨ Refreshed D S headers tr r ∨
      Resolved D v tr r) ↔ v.toStr.isSome := by
  have hinvalid : ¬ ValidAccess D S headers tr := by
    rintro ⟨token, now, rest, claims, htoken', -⟩
    rw [htoken] at htoken'
    cases htoken'
  have hvalue : headers.authorization >>= HeaderValue.toStr = v.toStr := by
    rw [hauth]
    rfl
  cases hv : v.toStr with
  | some value =>
    rw [authCheckHandler_bearer htoken (hvalue.trans hv)] at h
    exact ⟨fun _ => rfl, fun _ hstatus => .inr (.inr (handleBearer_ran hv h hstatus))⟩
  | none =>
    rw [authCheckHandler_anonymous htoken (hvalue.trans hv)] at h
    obtain ⟨hquiet, hstatus, hheaders, -⟩ := session_unacked h
    constructor
    · intro hproperty
      rcases hproperty hstatus with hvalid | hrefreshed | hresolved
      · exact absurd hvalid hinvalid
      · exact absurd hrefreshed (not_refreshed hquiet)
      · exact absurd hresolved (not_resolved hheaders)
    · intro hsome
      cases hsome

/-- With an access cookie it does exactly when the cookie settles the matter. -/
theorem cookie_settled_iff {token : String}
    (htoken : extractAccessCookie headers S.cookieConfig = some token)
    (h : Prog.Ran (authCheckHandler D S headers) tr r) :
    (r.status = 200 → ValidAccess D S headers tr ∨ Refreshed D S headers tr r ∨
      Resolved D v tr r) ↔
    (S.authCheckSilentRefresh = false ∨ ∃ now rest, tr = ⟨.utcNow, now⟩ :: rest ∧
      ((∃ claims, S.jwt.accessVerdict D token now = .ok claims) ∨
        S.jwt.accessVerdict D token now = .error .Expired ∧ Acked tr)) := by
  obtain ⟨now, rest, rfl, hheaders, hcase⟩ := cookie_ran htoken h
  have hunresolved : ¬ Resolved D v (⟨.utcNow, now⟩ :: rest) r := not_resolved hheaders
  by_cases hon : S.authCheckSilentRefresh = true
  · simp only [if_pos hon] at hcase
    rw [hon, Bool.true_eq_false, false_or]
    rcases hverdict : S.jwt.accessVerdict D token now with (_ | _) | claims <;>
      simp only [hverdict] at hcase
    · have hinvalid := not_validAccess htoken (Eq.refl (⟨.utcNow, now⟩ :: rest)) hverdict
      constructor
      · intro hproperty
        rcases hproperty hcase.1 with hvalid | ⟨jwt, row, -, -, hwrote, -⟩ | hresolved
        · exact absurd hvalid hinvalid
        · exact ⟨now, rest, rfl, .inr ⟨hverdict, hwrote.acked⟩⟩
        · exact absurd hresolved hunresolved
      · rintro ⟨now', rest', heq, ⟨claims, hok⟩ | ⟨-, hacked⟩⟩ -
        · cases heq
          rw [hverdict] at hok
          cases hok
        · exact .inr (.inl (hcase.2 hacked))
    · have hinvalid := not_validAccess htoken (Eq.refl (⟨.utcNow, now⟩ :: rest)) hverdict
      constructor
      · intro hproperty
        rcases hproperty hcase.1 with hvalid | hrefreshed | hresolved
        · exact absurd hvalid hinvalid
        · exact absurd hrefreshed (not_refreshed hcase.2)
        · exact absurd hresolved hunresolved
      · rintro ⟨now', rest', heq, ⟨claims, hok⟩ | ⟨hexpired, -⟩⟩ <;> cases heq
        · rw [hverdict] at hok
          cases hok
        · rw [hverdict] at hexpired
          cases hexpired
    · exact ⟨fun _ => ⟨now, rest, rfl, .inl ⟨claims, hverdict⟩⟩,
        fun _ _ => .inl ⟨token, now, rest, claims, htoken, rfl, hverdict⟩⟩
  · simp only [if_neg hon] at hcase
    refine ⟨fun _ => .inl (by simpa using hon), fun _ hstatus => ?_⟩
    rcases hverdict : S.jwt.accessVerdict D token now with (_ | _) | claims <;>
      simp only [hverdict] at hcase
    · rw [hcase] at hstatus
      cases hstatus
    · rw [hcase] at hstatus
      cases hstatus
    · exact .inl ⟨token, now, rest, claims, htoken, rfl, hverdict⟩

/-- Whatever store and clock answer, a `200` to a presented header means what it should
exactly when the cookie and the header settle it. -/
theorem check_settled_iff (hauth : headers.authorization = some v)
    (h : Prog.Ran (authCheckHandler D S headers) tr r) :
    (r.status = 200 → ValidAccess D S headers tr ∨ Refreshed D S headers tr r ∨
      Resolved D v tr r) ↔ Settled D S headers v tr := by
  unfold Settled
  cases htoken : extractAccessCookie headers S.cookieConfig with
  | none => exact bare_settled_iff hauth htoken h
  | some token => exact cookie_settled_iff htoken h

/-- A check that presents an `Authorization` header and passes has a valid access cookie, a
rotated refresh token or a resolved bearer, exactly when its cookie and header settle it. -/
theorem presented_settled_iff (D : Deps) (S : AppState) (clock : ℕ) (ls : List Event)
    (c : ServiceState) (t : ℕ) (headers : HeaderMap) (v : HeaderValue) (r : Response)
    (h : Run D S Unrestricted clock ls c) (harrive : .arrive t (.check headers) ∈ ls)
    (hauth : headers.authorization = some v) (hr : c.response t = some r) :
    (r.status = 200 → ValidAccess D S headers (callsOf t ls) ∨
      Refreshed D S headers (callsOf t ls) r ∨ Resolved D v (callsOf t ls) r) ↔
        Settled D S headers v (callsOf t ls) := by
  exact check_settled_iff hauth (Trace.request_ran h harrive hr)

end Check

section Sample

/-- A request alone that makes one call. -/
theorem one_call {D : Deps} {S : AppState} (clock : ℕ) (q : Request) (o : Op) (reply : o.Reply)
    {k : o.Reply → Action Response} {w : World} {r : Response}
    (hstart : serve D S q = .call o k) (hreply : k reply = .ret r)
    (answer : Answers (.initial clock) o reply w) :
    ∃ c, Run D S Unrestricted clock [.arrive 0 q, .call 0 o reply] c ∧ c.response 0 = some r := by
  have hhere : Function.update (fun _ => none) 0 (some (serve D S q)) 0 = some (.call o k) := by
    rw [Function.update_self, hstart]
  have hcall : Step service (Prog.machine Calls Response) (serve D S)
      ⟨.initial clock, Function.update (fun _ => none) 0 (some (serve D S q))⟩ (.call 0 o reply)
      ⟨w, Function.update _ 0 (some (k reply))⟩ := .call hhere rfl answer
  refine ⟨_, Trace.cons_iff.mpr ⟨_, ⟨.arrive rfl, trivial⟩, Trace.one ⟨hcall, trivial⟩⟩, ?_⟩
  simp [Config.result, hreply, progView]

/-- A bearer that resolves to a human's entry. -/
theorem presented_settled_sample : ∃ c, Run Sample.deps Sample.state Unrestricted Sample.moment
      [.arrive 0 (.check ⟨none, some [116]⟩),
        .call 0 (.resolve "t") (.ok (some ⟨.Human ⟨1⟩, ⟨2⟩⟩))] c ∧ ∃ r, c.response 0 = some r ∧
    ((r.status = 200 → ValidAccess Sample.deps Sample.state ⟨none, some [116]⟩
          [⟨.resolve "t", .ok (some ⟨.Human ⟨1⟩, ⟨2⟩⟩)⟩] ∨
        Refreshed Sample.deps Sample.state ⟨none, some [116]⟩
          [⟨.resolve "t", .ok (some ⟨.Human ⟨1⟩, ⟨2⟩⟩)⟩] r ∨
        Resolved Sample.deps [116] [⟨.resolve "t", .ok (some ⟨.Human ⟨1⟩, ⟨2⟩⟩)⟩] r) ↔
      Settled Sample.deps Sample.state ⟨none, some [116]⟩ [116]
        [⟨.resolve "t", .ok (some ⟨.Human ⟨1⟩, ⟨2⟩⟩)⟩]) := by
  obtain ⟨c, hc, hr⟩ := one_call (D := Sample.deps) (S := Sample.state) Sample.moment
    (.check ⟨none, some [116]⟩) (.resolve "t") (.ok (some ⟨.Human ⟨1⟩, ⟨2⟩⟩)) rfl rfl
    (.resolve _ _ _)
  exact ⟨c, hc, _, hr, presented_settled_iff _ _ _ _ c _ _ _ _ hc (.head _) rfl hr⟩

/-- An `Authorization` header with a byte outside ASCII counts as none. -/
theorem undecoded_passes : ∃ ls c r, Run Sample.deps Sample.state Unrestricted Sample.moment ls c ∧
    .arrive 0 (.check ⟨none, some [116, 233]⟩) ∈ ls ∧ c.response 0 = some r ∧ r.status = 200 ∧
      ¬ ValidAccess Sample.deps Sample.state ⟨none, some [116, 233]⟩ (callsOf 0 ls) ∧
      ¬ Refreshed Sample.deps Sample.state ⟨none, some [116, 233]⟩ (callsOf 0 ls) r ∧
      ¬ Resolved Sample.deps [116, 233] (callsOf 0 ls) r := by
  obtain ⟨c, hc, hr⟩ := one_call (D := Sample.deps) (S := Sample.state) Sample.moment
    (.check ⟨none, some [116, 233]⟩) .nowV7 (⟨1⟩ : Uuid) rfl rfl (.nowV7 _ _ (by decide))
  refine ⟨_, c, _, hc, .head _, hr, rfl, ?_, not_refreshed ?_, not_resolved rfl⟩
  · rintro ⟨token, now, rest, claims, htoken, -⟩
    cases htoken
  · exact not_acked (by simp [callsOf, Op.checks])

end Sample

end SvcAuth
