import SvcAuth.PhaseProjections
import SvcAuth.Renewal

/-! What a finished request sent. Tokens leave the service in the two cookies of a
granted rotation or of a login, and in no other response. -/
namespace SvcAuth
open Interleave RefreshTokenStore

variable {D : Deps} {S : AppState} {c : PhaseState} {t : ℕ} {ph : Phase} {r : Response}

theorem finished_iff : c.result (machine D S) t = some r ↔
    ∃ ph, c.threads t = some ph ∧ view D S ph = .inl r := by
  unfold Config.result
  cases c.threads t with
  | none => simp
  | some ph => simp [Sum.getLeft?_eq_some_iff]

theorem render_clears (n : Notice) : (n.render D S).Clears := by
  cases n with
  | status code => intro cookie hc; cases hc
  | noSession => intro cookie hc; cases hc
  | clearAccess =>
    intro cookie hc
    rcases List.mem_singleton.mp hc with rfl
    rfl
  | clearBoth => exact clearCookies_clears _
  | resolved entry => intro cookie hc; cases hc
  | refused e => exact intoResponse_clears e

theorem respond_clears (x : Ctx) {o : Outcome} (h : o.tokens D S = none) :
    (respond D S x o).Clears := by
  unfold respond
  rw [h]
  cases x.route with
  | check => exact clearCookies_clears _
  | token => exact refreshAnswer_clears o.refusal
  | refresh => exact refreshAnswer_clears o.refusal

theorem respond_grants (x : Ctx) {o : Outcome} {a b : String} (h : o.tokens D S = some (a, b)) :
    (respond D S x o).setCookie =
      [buildAccessCookie a S.cookieConfig, buildRefreshCookie b S.cookieConfig] := by
  unfold respond
  rw [h]
  cases x.route <;> rfl

theorem settle_response {x : Ctx} {o : Outcome} (h : view D S (.settle x o) = .inl r) :
    r = respond D S x o := by
  by_cases hs : x.session.isSome
  · simp only [view, if_pos hs] at h
    exact (Sum.inl.inj h).symm
  · simp only [view, if_neg hs] at h
    cases h

theorem reply_response {session : Option String} {n : Notice}
    (h : view D S (.reply session n) = .inl r) : r = n.render D S := by
  by_cases hs : session.isSome
  · simp only [view, if_pos hs] at h
    exact (Sum.inl.inj h).symm
  · simp only [view, if_neg hs] at h
    cases h

/-- The cookies of a finished request: cleared, a session id, or the tokens of its outcome. -/
theorem finished_cookie (h : view D S ph = .inl r) {cookie : SetCookie}
    (hc : cookie ∈ r.setCookie) : cookie.value = "" ∨
      cookie.name = S.cookieConfig.sessionCookieName D ∨
      ∃ o a b, ph.outcome = some o ∧ o.tokens D S = some (a, b) ∧
        (cookie = buildAccessCookie a S.cookieConfig ∨
          cookie = buildRefreshCookie b S.cookieConfig) := by
  have hanswered : ∀ x o, ph.outcome = some o → cookie ∈ (respond D S x o).setCookie →
      cookie.value = "" ∨ cookie.name = S.cookieConfig.sessionCookieName D ∨
        ∃ o a b, ph.outcome = some o ∧ o.tokens D S = some (a, b) ∧
          (cookie = buildAccessCookie a S.cookieConfig ∨
            cookie = buildRefreshCookie b S.cookieConfig) := by
    intro x o ho hmem
    cases htokens : o.tokens D S with
    | none => exact .inl (respond_clears x htokens cookie hmem)
    | some tokens =>
      obtain ⟨a, b⟩ := tokens
      rw [respond_grants x htokens] at hmem
      exact .inr (.inr ⟨o, a, b, ho, htokens, by simpa using hmem⟩)
  cases ph with
  | settle x o =>
    rw [settle_response h] at hc
    exact hanswered x o rfl hc
  | done x o sid =>
    cases h
    rw [withSession, Response.appendCookie_setCookie, List.mem_append, List.mem_singleton] at hc
    rcases hc with hc | rfl
    · exact hanswered x o rfl hc
    · exact .inr (.inl rfl)
  | reply session n =>
    rw [reply_response h] at hc
    exact .inl (render_clears n cookie hc)
  | replied n sid =>
    cases h
    rw [withSession, Response.appendCookie_setCookie, List.mem_append, List.mem_singleton] at hc
    rcases hc with hc | rfl
    · exact .inl (render_clears n cookie hc)
    · exact .inr (.inl rfl)
  | closed n =>
    cases h
    exact .inl (render_clears n cookie hc)
  | logoutDone seen =>
    cases h
    exact .inl (clearCookies_clears _ cookie hc)
  | _ => cases h

theorem finished_outcome {o : Outcome} (h : view D S ph = .inl r) (ho : ph.outcome = some o) :
    ∃ x, ∀ cookie ∈ (respond D S x o).setCookie, cookie ∈ r.setCookie := by
  cases ph with
  | settle x o' =>
    cases ho
    rw [settle_response h]
    exact ⟨x, fun _ hc => hc⟩
  | done x o' sid =>
    cases ho
    cases h
    exact ⟨x, fun _ hc => List.mem_append_left _ hc⟩
  | _ => cases ho

theorem sets_access (h : view D S ph = .inl r) {jwt : String} (hne : jwt ≠ "") :
    r.Sets S.cookieConfig.accessCookieName jwt ↔
      ∃ o b, ph.outcome = some o ∧ o.tokens D S = some (jwt, b) := by
  have hnames := S.cookieConfig.names_distinct D
  constructor
  · rintro ⟨cookie, hc, hname, rfl⟩
    rcases finished_cookie h hc with hempty | hsession | ⟨o, a, b, ho, htokens, rfl | rfl⟩
    · exact absurd hempty hne
    · exact absurd (hsession.symm.trans hname) hnames.2.1
    · exact ⟨o, b, ho, htokens⟩
    · exact absurd hname.symm hnames.1
  · rintro ⟨o, b, ho, htokens⟩
    obtain ⟨x, hsub⟩ := finished_outcome h ho
    refine ⟨buildAccessCookie jwt S.cookieConfig, hsub _ ?_, rfl, rfl⟩
    rw [respond_grants x htokens]
    exact .head _

theorem sets_refresh (h : view D S ph = .inl r) {jwt : String} (hne : jwt ≠ "") :
    r.Sets S.cookieConfig.refreshCookieName jwt ↔
      ∃ o a, ph.outcome = some o ∧ o.tokens D S = some (a, jwt) := by
  have hnames := S.cookieConfig.names_distinct D
  constructor
  · rintro ⟨cookie, hc, hname, rfl⟩
    rcases finished_cookie h hc with hempty | hsession | ⟨o, a, b, ho, htokens, rfl | rfl⟩
    · exact absurd hempty hne
    · exact absurd (hsession.symm.trans hname) hnames.2.2
    · exact absurd hname hnames.1
    · exact ⟨o, a, ho, htokens⟩
  · rintro ⟨o, a, ho, htokens⟩
    obtain ⟨x, hsub⟩ := finished_outcome h ho
    refine ⟨buildRefreshCookie jwt S.cookieConfig, hsub _ ?_, rfl, rfl⟩
    rw [respond_grants x htokens]
    exact .tail _ (.head _)

theorem tokens_ne_empty {o : Outcome} {a b : String} (h : o.tokens D S = some (a, b)) :
    a ≠ "" ∧ b ≠ "" := by
  cases o with
  | granted d =>
    cases h
    exact ⟨S.jwt.accessToken_ne_empty D _ _, S.jwt.refreshToken_ne_empty D _ _ _⟩
  | opened p =>
    cases h
    exact ⟨S.jwt.accessToken_ne_empty D _ _, S.jwt.refreshToken_ne_empty D _ _ _⟩
  | _ => cases h

theorem granted_rotated (h : view D S ph = .inl r) {x : Draft}
    (ho : ph.outcome = some (.granted x)) : r.Rotated S := by
  have htokens : (Outcome.granted x).tokens D S = some (_, _) := rfl
  obtain ⟨haccess, hrefresh⟩ := tokens_ne_empty htokens
  exact ⟨_, _, haccess, hrefresh, (sets_access h haccess).mpr ⟨_, _, ho, htokens⟩,
    (sets_refresh h hrefresh).mpr ⟨_, _, ho, htokens⟩⟩

theorem grants_iff (h : view D S ph = .inl r) :
    Grants S r ↔ ∃ o a b, ph.outcome = some o ∧ o.tokens D S = some (a, b) := by
  constructor
  · rintro ⟨jwt, hne, hset | hset⟩
    · obtain ⟨o, b, ho, htokens⟩ := (sets_access h hne).mp hset
      exact ⟨o, jwt, b, ho, htokens⟩
    · obtain ⟨o, a, ho, htokens⟩ := (sets_refresh h hne).mp hset
      exact ⟨o, a, jwt, ho, htokens⟩
  · rintro ⟨o, a, b, ho, htokens⟩
    have hne := (tokens_ne_empty htokens).1
    exact ⟨a, hne, .inl ((sets_access h hne).mpr ⟨o, b, ho, htokens⟩)⟩

theorem finished_held (h : view D S ph = .inl r) {x : Held} (hx : ph.held = some x) :
    (∃ o, ph.outcome = some o ∧ o.held = some x) ∨ ph.kind = some .logout := by
  cases ph with
  | settle y o => exact .inl ⟨o, rfl, hx⟩
  | done y o sid => exact .inl ⟨o, rfl, hx⟩
  | logoutDone seen => exact .inr rfl
  | reply session n => cases hx
  | replied n sid => cases hx
  | closed n => cases hx
  | _ => cases h

end SvcAuth
