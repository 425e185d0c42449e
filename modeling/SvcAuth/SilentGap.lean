import SvcAuth.CookieJar
import SvcAuth.FirstFamily
import SvcAuth.RotationPaths
import SvcAuth.PhaseFollows
import SvcAuth.SampleDeployment

/-! The gap between the two lifetimes, seen from a browser. It drops the access cookie when
the access token in it expires, and without that cookie `/auth/check` never looks at the
refresh cookie. -/
namespace SvcAuth
open Interleave RefreshTokenStore

section Anonymous
variable {D : Deps} {S : AppState} {headers : HeaderMap} {r : Response}

theorem anonymous_ungranted {session : Option String} {tr : List Calls.Event}
    (h : Prog.Ran (appendSessionCookieIfNeeded D S (.ofStatus 200) session) tr r) :
    r.status = 200 ∧ ¬ Grants S r := by
  have hnames := S.cookieConfig.names_distinct D
  rcases session_ran h with ⟨-, rfl⟩ | ⟨sid, -, rfl⟩
  · refine ⟨rfl, ?_⟩
    rintro ⟨jwt, -, ⟨cookie, hc, -⟩ | ⟨cookie, hc, -⟩⟩ <;> cases hc
  · refine ⟨rfl, ?_⟩
    rintro ⟨jwt, -, ⟨cookie, hc, hname, -⟩ | ⟨cookie, hc, hname, -⟩⟩
    · rw [List.mem_singleton.mp hc] at hname
      exact hnames.2.1 hname
    · rw [List.mem_singleton.mp hc] at hname
      exact hnames.2.2 hname

end Anonymous

section Lines
variable {D : Deps} {S : AppState} {ph : Phase} {r : Response}

/-- The lines of a response that hands out tokens: the two tokens, then a session id if the
client has none yet. -/
theorem granted_lines {o : Outcome} {a b : String} (h : view D S ph = .inl r)
    (ho : ph.outcome = some o) (htokens : o.tokens D S = some (a, b)) :
    ∃ rest, r.setCookie = buildAccessCookie a S.cookieConfig ::
      buildRefreshCookie b S.cookieConfig :: rest ∧
        ∀ line ∈ rest, line.name = S.cookieConfig.sessionCookieName D := by
  cases ph with
  | settle x o' =>
    cases ho
    rw [settle_response h]
    exact ⟨[], respond_grants x htokens, by simp⟩
  | done x o' sid =>
    cases ho
    cases h
    refine ⟨[buildSessionCookie D (D.uuidToString sid) S.cookieConfig], ?_, ?_⟩
    · rw [withSession, Response.appendCookie_setCookie, respond_grants x htokens]
      rfl
    · intro line hline
      rw [List.mem_singleton.mp hline]
      rfl
  | _ => cases ho

theorem Jar.receive_rest {now moment : ℕ} {name : String} (rest : List SetCookie)
    (hrest : ∀ line ∈ rest, line.name ≠ name) {jar : Jar} (h : jar.GoneBy name moment) :
    Jar.GoneBy (rest.foldl (Jar.receive now) jar) name moment := by
  induction rest generalizing jar with
  | nil => exact h
  | cons line rest ih =>
    exact ih (fun l hl => hrest l (.tail _ hl)) (Jar.receive_other (hrest line (.head _)) h)

theorem Jar.access_gone (jar : Jar) (received : ℕ) {a b : String} {rest : List SetCookie}
    (hlines : r.setCookie = buildAccessCookie a S.cookieConfig ::
      buildRefreshCookie b S.cookieConfig :: rest)
    (hrest : ∀ line ∈ rest, line.name = S.cookieConfig.sessionCookieName D) :
    (jar.receiveAll received r).GoneBy S.cookieConfig.accessCookieName
      (received + S.cookieConfig.accessMaxAge.toNat) := by
  have hnames := S.cookieConfig.names_distinct D
  have haccess : (jar.receive received (buildAccessCookie a S.cookieConfig)).GoneBy
      S.cookieConfig.accessCookieName (received + S.cookieConfig.accessMaxAge.toNat) :=
    Jar.receive_same S.cookieConfig.accessCookieName_token rfl le_rfl
  rw [receiveAll, hlines, List.foldl_cons, List.foldl_cons]
  refine Jar.receive_rest rest (fun line hline => ?_) (Jar.receive_other hnames.1.symm haccess)
  rw [hrest line hline]
  exact hnames.2.1

theorem Run.access_dropped {G : Assumption} {clock : ℕ} {ls : List Event} {c : ServiceState}
    {t : ℕ} (hrun : Run D S G clock ls c) (hr : c.response t = some r) (hgrants : Grants S r)
    (jar : Jar) {received now : ℕ} (hlate : received + S.cookieConfig.accessMaxAge.toNat ≤ now) :
    extractAccessCookie ((jar.receiveAll received r).headers now) S.cookieConfig = none := by
  obtain ⟨d, -, hm⟩ := Segment.phases (mirrors_initial _) hrun
  rw [hm.response t] at hr
  obtain ⟨ph, -, hview⟩ := finished_iff.mp hr
  obtain ⟨o, a, b, ho, htokens⟩ := (grants_iff hview).mp hgrants
  obtain ⟨rest, hlines, hrest⟩ := granted_lines hview ho htokens
  have hgone := Jar.access_gone jar received hlines hrest
  have hname := S.cookieConfig.accessCookieName_token
  exact extract_absent (fun h => (hname.2 _ h).1 rfl) (hgone.absent hlate)

end Lines

/-- A login at `s` whose response reaches a browser `delay` seconds later, and the next
request the browser makes, in the gap: behind the access token's lifetime and its leeway,
before the refresh token's end. Nothing fails in the store; other clients may do anything. -/
structure GapCheck (D : Deps) (config : AppConfig) where
  enabled : config.authCheckSilentRefresh = true
  shorter : config.accessTokenTtl < config.refreshTokenTtl
  clock : ℕ
  before : List Event
  c : ServiceState
  run : Run D config.state FaultFree clock before c
  t : ℕ
  headers : HeaderMap
  body : Option TokenRequest
  login : .arrive t (.token headers body) ∈ before
  s : ℕ
  time : ∀ now : ℕ, .call t .utcNow now ∈ before → now = s
  response : Response
  answered : c.response t = some response
  granted : Grants config.state response
  delay : ℕ
  prompt : delay ≤ 5
  jar : Jar
  between : List Event
  d : ServiceState
  wait : Segment D config.state FaultFree c between d
  behind : s + config.accessTokenTtl.toNat + 5 < d.world.clock
  ahead : d.world.clock < s + config.refreshTokenTtl.toNat
  u : ℕ
  after : List Event
  e : ServiceState
  check : Segment D config.state FaultFree d (.arrive u (.check
    ((jar.receiveAll (s + delay) response).headers d.world.clock)) :: after) e
  answer : Response
  replied : e.response u = some answer

namespace GapCheck
variable {D : Deps} {config : AppConfig} (g : GapCheck D config)

/-- The cookies the browser sends. -/
def sent : HeaderMap := (g.jar.receiveAll (g.s + g.delay) g.response).headers g.d.world.clock

theorem sent_access : extractAccessCookie g.sent config.state.cookieConfig = none := by
  refine Run.access_dropped g.run g.answered g.granted g.jar ?_
  have hprompt := g.prompt
  have hbehind := g.behind
  have hage : config.state.cookieConfig.accessMaxAge = config.accessTokenTtl := rfl
  rw [hage]
  omega

theorem anonymous : g.answer.status = 200 ∧ ¬ Grants config.state g.answer := by
  have hrun := Trace.trans (Trace.trans g.run g.wait) g.check
  have hran : Prog.Ran (serve D config.state (.check g.sent)) _ g.answer :=
    Trace.request_ran hrun (List.mem_append_right _ (.head _)) g.replied
  rw [serve, authCheckHandler_anonymous g.sent_access rfl] at hran
  exact anonymous_ungranted hran

end GapCheck

/-- No check in the gap renews the session: it is answered as if nobody were logged in. -/
theorem gap_uncovered (D : Deps) (config : AppConfig) (g : GapCheck D config) :
    g.answer.status = 200 ∧ ¬ g.answer.Rotated config.state := by
  obtain ⟨hstatus, hnone⟩ := g.anonymous
  exact ⟨hstatus, fun hrotated => hnone hrotated.grants⟩

section Sample

theorem anonymous_served {D : Deps} {S : AppState} {c : PhaseState} {t : ℕ} {headers : HeaderMap}
    (sid : Uuid) (idle : c.threads t = none)
    (haccess : extractAccessCookie headers S.cookieConfig = none)
    (hauth : headers.authorization = none) (hsid : sid ∉ c.world.minted) :
    ∃ after d r, PhaseSegment D S FaultFree c (.arrive t (.check headers) :: after) d ∧
      d.result (machine D S) t = some r := by
  have hstart : start D S (.check headers) =
      .reply (extractSessionCookie D headers S.cookieConfig) (.status 200) := by
    rw [start, startCheck, haccess, hauth]
    rfl
  cases hsession : extractSessionCookie D headers S.cookieConfig with
  | some session =>
    rw [hsession] at hstart
    refine ⟨[], _, (Notice.status 200).render D S, .arrive idle trivial (.nil _), ?_⟩
    exact finished_iff.mpr ⟨_, Config.move_same _ _ _ _, hstart ▸ rfl⟩
  | none =>
    rw [hsession] at hstart
    refine ⟨[.call t .nowV7 sid], c.move (c.world.mint sid) t (.replied (.status 200) sid),
      withSession D S ((Notice.status 200).render D S) sid, .arrive idle trivial ?_, ?_⟩
    · rw [hstart]
      exact .answer rfl rfl (.nowV7 _ sid hsid) (fun _ => rfl) (.nil _)
    · exact finished_iff.mpr ⟨_, Config.move_same _ _ _ _, rfl⟩

/-- The defaults of the configuration, under a secret. -/
def Sample.config : AppConfig := ⟨"secret", "svc-auth", 900, 604800, true, true⟩

/-- A login that is received at once, and a check 1000 seconds later: the access token expired
after 900, the refresh token is good for days, and the check renews nothing. -/
theorem gap_unrenewed : ∃ g : GapCheck Sample.deps Sample.config, g.s = Sample.moment ∧
    g.delay = 0 ∧ g.jar = [] ∧ g.d.world.clock = Sample.moment + 1000 ∧
      ¬ g.answer.Rotated Sample.config.state := by
  obtain ⟨r, hview⟩ : ∃ r, view Sample.deps Sample.config.state
      (.done ⟨.token, none⟩ (.opened (firstLogin Sample.moment)) (serial 3)) = .inl r := ⟨_, rfl⟩
  have hgrants : Grants Sample.config.state r := (grants_iff hview).mpr ⟨_, _, _, rfl, rfl⟩
  obtain ⟨c, hc, hm⟩ := PhaseSegment.service (mirrors_initial _)
    (opening_run Sample.deps Sample.config.state Sample.moment permits_faultFree)
  have hresponse : c.response 0 = some r := by
    rw [hm.response 0]
    exact finished_iff.mpr ⟨_, Config.move_same _ _ _ _, hview⟩
  let waited : PhaseState :=
    ⟨(opened Sample.deps Sample.moment).world.pass ⟨1000, fun _ => false⟩,
      (opened Sample.deps Sample.moment).threads⟩
  have hpass : PhaseSegment Sample.deps Sample.config.state FaultFree
      (opened Sample.deps Sample.moment) [.env ⟨1000, fun _ => false⟩] waited :=
    PhaseSegment.passage fun _ => trivial
  obtain ⟨d, hd, hm'⟩ := PhaseSegment.service hm hpass
  have hclock : d.world.clock = Sample.moment + 1000 := by
    rw [hm'.1]
    rfl
  have hlate : Sample.moment + 0 + Sample.config.state.cookieConfig.accessMaxAge.toNat ≤
      d.world.clock := by
    rw [hclock]
    decide
  have haccess := Run.access_dropped hc hresponse hgrants [] hlate
  obtain ⟨after, e, answer, he, hanswer⟩ := anonymous_served (D := Sample.deps) (c := waited)
    (t := 1) (serial 4) (opened_idle Sample.deps Sample.moment Nat.one_pos) haccess rfl
    (show serial 4 ∉ (opened Sample.deps Sample.moment).world.minted by decide)
  obtain ⟨e', he', hm''⟩ := PhaseSegment.service hm' he
  have hreplied : e'.response 1 = some answer := by
    rw [hm''.response 1]
    exact hanswer
  have htime : ∀ now : ℕ, .call 0 .utcNow now ∈ openingLog Sample.deps Sample.moment →
      now = Sample.moment := by
    intro now hnow
    simp only [openingLog, loginLog, List.mem_cons, List.not_mem_nil, or_false] at hnow
    rcases hnow with h | h | h | h | h | h | h | h | h <;> cases h <;> rfl
  let g : GapCheck Sample.deps Sample.config := {
    enabled := rfl, shorter := by decide, clock := Sample.moment, before := _, c := c, run := hc, t := 0
    headers := _, body := _, login := .head _, s := Sample.moment, time := htime
    response := r, answered := hresponse, granted := hgrants, delay := 0, prompt := by decide, jar := []
    between := _, d := d, wait := hd, behind := by rw [hclock]; decide
    ahead := by rw [hclock]; decide
    u := 1, after := after, e := e', check := he', answer := answer, replied := hreplied }
  exact ⟨g, rfl, rfl, rfl, hclock, fun hrotated => g.anonymous.2 hrotated.grants⟩

end Sample

end SvcAuth
