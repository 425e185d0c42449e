import SvcAuth.LiveSessions
import SvcAuth.LogoutRevocation

/-! A store failure that hits a request with a live refresh token, on either rotation path and
in any reachable state of the service. Only `/auth/refresh` keeps the client's cookies through
it, and only where the failure is not that of the revocation lookup, which goes unnoticed. -/
namespace SvcAuth
open Interleave RefreshTokenStore

/-- A step of the service in which request `t` loses the calls that fail, and everybody else
leaves the session alone. -/
structure Sparing (D : Deps) (S : AppState) (t : ℕ) (id f : Uuid) (c : ServiceState) (l : Event)
    (d : ServiceState) : Prop where
  step : Step service (Prog.machine Calls Response) (serve D S) c l d
  lost : ∀ o r, l = .call t o r → failed o r = true → d.world = c.world
  spared : (∀ o r, l ≠ .call t o r) → SessionKept D id f c.world d.world

/-- A request to one of the rotation paths with the refresh token of a live session, in any
reachable state, one or more of whose calls to the store fail. -/
structure Interrupted (D : Deps) (S : AppState) where
  clock : ℕ
  before : List Event
  c : ServiceState
  run : Run D S Unrestricted clock before c
  row : RefreshToken
  revision : Revision
  stored : c.world.read (rowKey D row.id) = some (.token row, revision)
  unused : row.usedAt = none
  unrevoked : ¬ c.world.Revoked D row.familyId
  t : ℕ
  q : Request
  ls : List Event
  d : ServiceState
  segment : Trace (Sparing D S t row.id row.familyId) c (.arrive t q :: ls) d
  presenting : Presenting D S row.id q (callsOf t ls)
  response : Response
  answered : d.response t = some response
  failure : ∃ e ∈ callsOf t ls, failed e.1 e.2 = true

/-- What the request did to the client: its cookies stay, its row is unchanged, its family is
not revoked, and its refresh token rotates when it is presented to a store that answers. -/
structure Interrupted.Harmless {D : Deps} {S : AppState} (g : Interrupted D S) : Prop where
  cookies : ∀ cookie ∈ g.response.setCookie, cookie.name ≠ S.cookieConfig.accessCookieName ∧
    cookie.name ≠ S.cookieConfig.refreshCookieName
  row : g.d.world.read (rowKey D g.row.id) = g.c.world.read (rowKey D g.row.id)
  live : ¬ g.d.world.Revoked D g.row.familyId
  retry : ∀ later q tr r w, SessionKept D g.row.id g.row.familyId g.d.world later →
    Renewing D S g.row.id g.row.familyId later q tr r w → Faultless tr → r.Rotated S

section Segments
variable {D : Deps} {S : AppState} {t : ℕ} {id f : Uuid} {c d : ServiceState} {ls : List Event}

theorem callsOf_other {l : Event} (h : ∀ o r, l ≠ .call t o r) : callsOf t [l] = [] := by
  cases l with
  | arrive u q => rfl
  | env e => rfl
  | call u o r =>
    refine if_neg ?_
    rintro rfl
    exact h o r rfl

theorem sparing_worlds (h : Trace (Sparing D S t id f) c ls d) : ∃ w,
    Trace (Unapplied D id f) c.world (callsOf t ls) w ∧ SessionKept D id f w d.world := by
  induction h with
  | nil => exact ⟨_, .nil _, .refl _ _ _ _⟩
  | @snoc d e ls l prior last ih =>
    obtain ⟨w, hworlds, hkept⟩ := ih
    rw [callsOf_append]
    by_cases hown : ∃ o r, l = .call t o r
    · obtain ⟨o, r, rfl⟩ := hown
      have hone : callsOf t [(.call t o r : Event)] = [⟨o, r⟩] := if_pos rfl
      rw [hone]
      exact ⟨e.world, .snoc hworlds ⟨d.world, hkept, last.step.executed, last.lost o r rfl⟩,
        .refl _ _ _ _⟩
    · have hother : ∀ o r, l ≠ .call t o r := fun o r hl => hown ⟨o, r, hl⟩
      rw [callsOf_other hother, List.append_nil]
      exact ⟨w, hworlds, hkept.trans (last.spared hother)⟩

end Segments

namespace Interrupted
variable {D : Deps} {S : AppState} (g : Interrupted D S)

theorem segment_run : Segment D S Unrestricted g.c (.arrive g.t g.q :: g.ls) g.d :=
  g.segment.mono fun _ _ _ _ h => ⟨h.step, trivial⟩

theorem ran : Prog.Ran (serve D S g.q) (callsOf g.t g.ls) g.response := by
  have hrun := Trace.trans g.run g.segment_run
  have hran := Trace.request_ran hrun (List.mem_append_right _ (.head _)) g.answered
  have hidle := ((Trace.arrived g.segment_run).1 _ _ (.head _)).1
  have hbefore := ((Trace.executions g.run) g.t).1 hidle
  rw [callsOf_append, hbefore] at hran
  exact hran

theorem standing : Standing D g.c.world g.row g.revision := by
  refine ⟨g.stored, ?_⟩
  obtain ⟨c, hc, hm⟩ := Segment.phases (mirrors_initial _) g.run
  have hrow : c.world.RowOf D g.row.id g.row := by
    rw [← hm.1]
    exact ⟨_, g.stored⟩
  obtain ⟨-, hissued⟩ := PhaseRun.rowOf_issued hc hrow
  rw [hm.1]
  exact (PhaseRun.fresh hc).published _ (hissued.published).1

end Interrupted

/-- In every reachable state a store failure leaves the client as it was exactly if the request
went to `/auth/refresh` and some call other than the revocation lookup failed. -/
theorem failures_harmless_iff (D : Deps) (S : AppState) (g : Interrupted D S) : g.Harmless ↔
    (∃ headers body, g.q = .refresh headers body) ∧ ∃ e ∈ callsOf g.t g.ls,
      failed e.1 e.2 = true ∧ e.1 ≠ .get (markerKey D g.row.familyId) := by
  obtain ⟨w, hworlds, hend⟩ := sparing_worlds g.segment
  have hcookies : (∀ cookie ∈ g.response.setCookie,
      cookie.name ≠ S.cookieConfig.accessCookieName ∧
        cookie.name ≠ S.cookieConfig.refreshCookieName) ↔ g.response.tokenCookies S = [] := by
    simp [Response.tokenCookies, List.filter_eq_nil_iff]
  rcases presented_live g.presenting g.ran hworlds g.standing g.unused g.unrevoked with
    ⟨message, hanswer, hfault, hkept⟩ | ⟨hrotated, hlookup, -⟩
  · have hafter := hkept.trans hend
    have hlive := hafter.revoked.not.mpr g.unrevoked
    constructor
    · intro h
      rw [hcookies.mp h.cookies] at hanswer
      have hpath := (answer_internal g.q message).mp hanswer.symm
      rcases g.presenting.path with hrefresh | ⟨headers, hcheck⟩
      · exact ⟨hrefresh, hfault⟩
      · exact absurd hcheck (hpath headers)
    · rintro ⟨⟨headers, body, hq⟩, -⟩
      have hpath : ∀ headers, g.q ≠ .check headers := by simp [hq]
      have hnone := hanswer.trans ((answer_internal g.q message).mpr hpath)
      refine ⟨hcookies.mpr hnone, hafter.row, hlive, ?_⟩
      intro later q tr r w' hlater hrenewing hfine
      have hstanding := g.standing.kept (hafter.trans hlater)
      exact (hrenewing.live hfine hstanding g.unused (hlater.revoked.not.mpr hlive)).1
  · constructor
    · intro h
      exact absurd (hcookies.mp h.cookies) hrotated.tokenCookies_ne
    · rintro ⟨-, e, he, hfailed, hother⟩
      exact absurd (hlookup e he hfailed) hother

section Sample
variable {D : Deps} {S : AppState}

/-- A renewal whose first lookup fails. -/
theorem unread_ran {jwt : String} {now : ℕ} {claims : RefreshClaims} {id : Uuid}
    (accepted : Accepts D S jwt now claims id) : Prog.Ran (renewal D S (fun r => r) jwt)
      [⟨.utcNow, now⟩, ⟨.get (rowKey D id), .error .Unavailable⟩]
      (.error (.Internal ((StoreError.Kv .Unavailable).toString D))) := by
  rw [renewal_eq]
  refine .call ?_
  simp only [accepted.1, accepted.2]
  exact .call (.ret _)

/-- A session cookie takes one call at most, which draws a UUID. -/
theorem session_runs (r : Response) (session : Option String) {w : World} {u : Uuid}
    (hfresh : u ∉ w.minted) : ∃ (tr : List Calls.Event) (r' : Response) (w' : World),
      Prog.Ran (appendSessionCookieIfNeeded D S r session) tr r' ∧ Trace service.answers w tr w' ∧
        (∀ e ∈ tr, e.1 = .nowV7) ∧ ∀ c ∈ r.setCookie, c ∈ r'.setCookie := by
  cases session with
  | some sid => exact ⟨[], r, w, .ret _, .nil _, by simp, fun _ h => h⟩
  | none =>
    refine ⟨[⟨.nowV7, u⟩], _, w.mint u, .call (.ret _), .one (.nowV7 _ _ hfresh), by simp, ?_⟩
    exact fun c hc => List.mem_append_left _ hc

/-- The calls of a check behind an expired access token, whose lookup of the row fails. -/
def Sample.unread : List Calls.Event :=
  [⟨.utcNow, (moment + 1000 : ℕ)⟩, ⟨.utcNow, (moment + 1000 : ℕ)⟩,
    ⟨.get (rowKey deps (serial 1)), .error .Unavailable⟩]

theorem Sample.unread_ran {session : List Calls.Event} {r : Response}
    (h : Prog.Ran (appendSessionCookieIfNeeded Sample.deps Sample.state
      (clearCookiesResponse Sample.state) (extractSessionCookie Sample.deps Sample.headers
        Sample.state.cookieConfig)) session r) :
    Prog.Ran (serve Sample.deps Sample.state (.check Sample.headers)) (Sample.unread ++ session) r := by
  rw [serve, authCheckHandler_eq rfl Sample.headers_tokens.1 Sample.headers_refresh]
  refine .call ?_
  rw [Sample.accessVerdict_late]
  exact Prog.ran_bind.mpr ⟨_, _, session, rfl,
    SvcAuth.unread_ran (accepts_live (Sample.live_later (by decide)) _ _), h⟩

/-- A request by itself, in which no call fails but reads. -/
theorem sparing_request {t : ℕ} {q : Request} {tr : List Calls.Event} {r : Response} {id f : Uuid}
    {c : ServiceState} {w : World} (idle : c.threads t = none) (hran : Prog.Ran (serve D S q) tr r)
    (hworlds : Trace service.answers c.world tr w)
    (hreads : ∀ e ∈ tr, failed e.1 e.2 = true → ∃ k, e.1 = .get k) :
    Trace (Sparing D S t id f) c (.arrive t q :: callsBy t tr)
      ⟨w, Function.update c.threads t (some (.ret r))⟩ := by
  have hsegment : Segment D S Unrestricted c (.arrive t q :: callsBy t tr)
      ⟨w, Function.update c.threads t (some (.ret r))⟩ :=
    Trace.request (fun _ _ _ => trivial) idle hran hworlds
  refine hsegment.mono fun c l d hl h => ⟨h.1, ?_, ?_⟩
  · rintro o reply rfl hfailed
    have hcall : (⟨o, reply⟩ : Calls.Event) ∈ tr := by
      rw [← callsOf_callsBy t tr]
      exact mem_callsOf.mpr ((List.mem_cons.mp hl).resolve_left (by simp))
    obtain ⟨k, rfl⟩ : ∃ k, o = .get k := hreads _ hcall hfailed
    have hanswer : Answers c.world (.get k) reply d.world := h.1.executed
    exact hanswer.of_get.1
  · intro hother
    rcases List.mem_cons.mp hl with rfl | hcall
    · rcases h.1.inv with ⟨_, _, -, -, hw, -⟩ | ⟨_, _, _, _, _, hl, -⟩ | ⟨_, hl, -⟩
      · rw [hw]
        exact .refl _ _ _ _
      · cases hl
      · cases hl
    · obtain ⟨e, -, he⟩ := List.mem_map.mp hcall
      exact absurd he.symm (hother _ _)

/-- A client whose access token has expired, whose refresh token is live and the lookup of whose
row fails: `/auth/check` clears both cookies. -/
theorem failure_logs_out : ∃ g : Interrupted Sample.deps Sample.state, ¬ g.Harmless ∧
    buildClearRefreshCookie Sample.state.cookieConfig ∈ g.response.setCookie := by
  let later : Passage := ⟨1000, fun _ => false⟩
  obtain ⟨c, hc, hm⟩ := PhaseSegment.service (mirrors_initial _) (Trace.trans
    (opening_run Sample.deps Sample.state Sample.moment permits_unrestricted)
    (PhaseSegment.passage (e := later) fun _ => trivial))
  have hworld : c.world = (opened Sample.deps Sample.moment).world.pass later := hm.1
  have hread : ∀ k, c.world.read k = (opened Sample.deps Sample.moment).world.read k := by
    intro k
    rw [hworld, World.pass_read_kept _ rfl]
  have hidle : c.threads 1 = none := by
    have hrel : Option.Rel _ (c.threads 1) ((opened Sample.deps Sample.moment).threads 1) := hm.2 1
    rw [opened_idle Sample.deps Sample.moment Nat.one_pos] at hrel
    cases hthread : c.threads 1 with
    | none => rfl
    | some p =>
      rw [hthread] at hrel
      cases hrel
  have hfresh : serial 4 ∉ c.world.minted := by
    rw [hworld]
    decide
  obtain ⟨session, r, w, hsession, hrest, hquiet, hcookies⟩ := session_runs
    (D := Sample.deps) (S := Sample.state) (clearCookiesResponse Sample.state)
    (extractSessionCookie Sample.deps Sample.headers Sample.state.cookieConfig) hfresh
  have hclock : c.world.clock = Sample.moment + 1000 := by
    rw [hworld]
    rfl
  have hnow : Answers c.world .utcNow (Sample.moment + 1000 : ℕ) c.world := hclock ▸ .utcNow c.world
  have hworlds : Trace service.answers c.world (Sample.unread ++ session) w :=
    Trace.cons_iff.mpr ⟨_, hnow, Trace.cons_iff.mpr ⟨_, hnow, Trace.cons_iff.mpr
      ⟨_, .getFailed _ _, hrest⟩⟩⟩
  have hreads : ∀ e ∈ Sample.unread ++ session, failed e.1 e.2 = true → ∃ k, e.1 = .get k := by
    intro e he hfailed
    rcases List.mem_append.mp he with he | he
    · simp only [Sample.unread, List.mem_cons, List.not_mem_nil, or_false] at he
      rcases he with rfl | rfl | rfl
      · cases hfailed
      · cases hfailed
      · exact ⟨_, rfl⟩
    · obtain ⟨o, reply⟩ := e
      cases hquiet _ he
      cases hfailed
  have hrequest : Trace (Sparing Sample.deps Sample.state 1 (serial 1) (serial 2)) c _ _ :=
    sparing_request hidle (Sample.unread_ran hsession) hworlds hreads
  have hstored : c.world.read (rowKey Sample.deps (serial 1)) =
      some (.token (firstHeld Sample.moment).row, 1) :=
    (hread _).trans (opened_first Sample.deps Sample.moment)
  have hunrevoked : ¬ c.world.Revoked Sample.deps (serial 2) := by
    rintro ⟨m, rev, hmarker⟩
    rw [hread, opened_other Sample.deps Sample.moment (markerKey_ne_rowKey _ _ _)] at hmarker
    cases hmarker
  have hcleared : buildClearRefreshCookie Sample.state.cookieConfig ∈ r.setCookie :=
    hcookies _ (.tail _ (.head _))
  let g : Interrupted Sample.deps Sample.state := {
    clock := Sample.moment, before := _, c := c, run := hc, row := (firstHeld Sample.moment).row
    revision := 1
    stored := hstored, unused := rfl, unrevoked := hunrevoked, t := 1, q := .check Sample.headers
    ls := callsBy 1 (Sample.unread ++ session), d := _, segment := hrequest
    presenting := by
      rw [callsOf_callsBy]
      exact .check rfl Sample.headers_tokens.1 Sample.accessVerdict_late Sample.headers_refresh
        (accepts_live (Sample.live_later (by decide)) _ _)
    response := r
    answered := by simp [Config.result, progView]
    failure := by
      rw [callsOf_callsBy]
      exact ⟨_, List.mem_append_left _ (.tail _ (.tail _ (.head _))), rfl⟩ }
  exact ⟨g, fun h => (h.cookies _ hcleared).2 rfl, hcleared⟩

end Sample
end SvcAuth
