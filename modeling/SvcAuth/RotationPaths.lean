import SvcAuth.InterleaveSolo
import SvcAuth.Renewal
import SvcAuth.SampleDeployment
import SvcAuth.Service

/-! The two rotation paths side by side. Whatever the store answers, the handlers make the
same bucket calls and hand out the same tokens. -/
namespace SvcAuth
open Interleave RefreshTokenStore

variable (D : Deps) (S : AppState)

section Agreement

/-- A call to the bucket. -/
def Op.kv : Op → Bool
  | .get _ | .put _ _ | .updateIf _ _ _ => true
  | _ => false

/-- The bucket calls of an execution, with their answers. -/
def kvCalls (tr : List Calls.Event) : List Calls.Event := tr.filter fun e => e.1.kv

/-- These calls, answered so, may leave this world behind. -/
inductive Leaves : World → List Calls.Event → World → Prop
  | nil (w : World) : Leaves w [] w
  | cons {w w' w'' : World} {o : Op} {r : o.Reply} {tr : List Calls.Event}
      (answer : Answers w o r w') (rest : Leaves w' tr w'') : Leaves w (⟨o, r⟩ :: tr) w''

/-- The execution tries to revoke the family. -/
def Revokes (tr : List Calls.Event) (f : Uuid) : Prop :=
  ∃ m r, (⟨.put (markerKey D f) (.revoked m), r⟩ : Calls.Event) ∈ tr

/-- The access and refresh cookies a response sets, cleared ones left out. -/
def Response.granted (r : Response) : List SetCookie :=
  r.setCookie.filter fun c => (c.name = S.cookieConfig.accessCookieName ∨
    c.name = S.cookieConfig.refreshCookieName) ∧ c.value ≠ ""

variable {D S}

theorem kvCalls_append (tr tr' : List Calls.Event) :
    kvCalls (tr ++ tr') = kvCalls tr ++ kvCalls tr' :=
  List.filter_append ..

theorem kvCalls_clock (now : Op.utcNow.Reply) (tr : List Calls.Event) :
    kvCalls (⟨.utcNow, now⟩ :: tr) = kvCalls tr :=
  rfl

theorem revokes_iff {tr : List Calls.Event} {f : Uuid} :
    Revokes D tr f ↔ Revokes D (kvCalls tr) f := by
  constructor
  · rintro ⟨m, r, h⟩
    exact ⟨m, r, List.mem_filter.mpr ⟨h, rfl⟩⟩
  · rintro ⟨m, r, h⟩
    exact ⟨m, r, (List.mem_filter.mp h).1⟩

theorem granted_session (r : Response) (sid : String) :
    (r.appendCookie (buildSessionCookie D sid S.cookieConfig)).granted S = r.granted S := by
  obtain ⟨-, haccess, hrefresh⟩ := S.cookieConfig.names_distinct D
  simp [Response.granted, List.filter_append, buildSessionCookie, haccess, hrefresh]

theorem clears_granted {r : Response} (h : r.Clears) : r.granted S = [] := by
  refine List.filter_eq_nil_iff.mpr fun c hc => ?_
  simp [h c hc]

/-- The session cookie costs no bucket call and sets no token. -/
theorem session_play (r : Response) (session : Option String)
    (answers : ℕ → (o : Op) → o.Reply) (n : ℕ) :
    kvCalls ((appendSessionCookieIfNeeded D S r session).play answers n).1 = [] ∧
      ((appendSessionCookieIfNeeded D S r session).play answers n).2.granted S = r.granted S := by
  unfold appendSessionCookieIfNeeded
  cases session with
  | some sid => exact ⟨rfl, rfl⟩
  | none => exact ⟨rfl, granted_session r _⟩

theorem answers_granted (r : Renewed) :
    (checkAnswer S r).granted S = (refreshAnswer S r).granted S := by
  rcases r with e | ⟨access, refresh⟩
  · rw [clears_granted (r := checkAnswer S (.error e)) (clearCookies_clears _)]
    exact (clears_granted (refreshAnswer_clears e)).symm
  · rfl

/-- On the same answers of store, clock and UUIDs, but for the clock reading under which
`/auth/check` sees the access token expire, both paths make the same bucket calls with the
same arguments, leave the same store, revoke the same families and set the same tokens. -/
theorem rotation_paths_agree (D : Deps) (S : AppState) (headers headers' : HeaderMap)
    (body : Option RefreshRequest) (jwt token : String)
    (answers answers' : ℕ → (o : Op) → o.Reply) (hon : S.authCheckSilentRefresh = true)
    (hbody : (body.getD ⟨none⟩).refreshToken = none)
    (hcookie : extractRefreshCookie headers S.cookieConfig = some jwt)
    (hcookie' : extractRefreshCookie headers' S.cookieConfig = some jwt)
    (haccess : extractAccessCookie headers' S.cookieConfig = some token)
    (hexpired : S.jwt.accessVerdict D token (answers' 0 .utcNow) = .error .Expired)
    (hsame : ∀ n o, answers' (n + 1) o = answers n o) :
    let refreshed := (refreshHandler D S headers body).play answers 0
    let checked := (authCheckHandler D S headers').play answers' 0
    kvCalls checked.1 = kvCalls refreshed.1 ∧
      (∀ w w', Leaves w (kvCalls checked.1) w' ↔ Leaves w (kvCalls refreshed.1) w') ∧
      (∀ f, Revokes D checked.1 f ↔ Revokes D refreshed.1 f) ∧
      checked.2.granted S = refreshed.2.granted S := by
  intro refreshed checked
  have hresolve : resolveRefreshToken S (body.getD ⟨none⟩) headers = some jwt := by
    rw [resolveRefreshToken, hbody, hcookie]
  have hcalls : kvCalls checked.1 = kvCalls refreshed.1 := by
    simp only [checked, refreshed]
    rw [refreshHandler_eq hresolve, authCheckHandler_eq hon haccess hcookie', Prog.play_call,
      hexpired]
    simp only
    rw [Prog.play_bind, Prog.play_bind, Prog.play_shift hsame]
    rw [kvCalls_clock, kvCalls_append, kvCalls_append, (session_play _ _ _ _).1,
      (session_play _ _ _ _).1]
  refine ⟨hcalls, fun w w' => by rw [hcalls], fun f => ?_, ?_⟩
  · rw [revokes_iff, hcalls, ← revokes_iff]
  · simp only [checked, refreshed]
    rw [refreshHandler_eq hresolve, authCheckHandler_eq hon haccess hcookie', Prog.play_call,
      hexpired]
    simp only
    rw [Prog.play_bind, Prog.play_bind, Prog.play_shift hsame]
    simp only [(session_play _ _ _ _).2, answers_granted]

end Agreement

namespace Sample

/-- A row to rotate. -/
def row : RefreshToken := ⟨⟨1⟩, "user@example.com", ⟨2⟩, none, none, moment⟩

/-- A clock that stands 1000 seconds later, one UUID, and a store that has the row and takes
all writes. -/
def answer : (o : Op) → o.Reply
  | .utcNow => (moment + 1000 : ℕ)
  | .nowV7 => (⟨3⟩ : Uuid)
  | .verifyIdToken _ => .error "unused"
  | .get k => .ok (if k = rowKey deps ⟨1⟩ then some (.token row, 1) else none)
  | .put _ _ => .ok ()
  | .updateIf _ _ _ => .ok ()
  | .resolve _ => .ok none

/-- The cookies of a client that logged in then. -/
def headers : HeaderMap :=
  tokenHeaders state.cookieConfig
    (clean_hmacToken (state.jwt.accessClaims "user@example.com" moment).toMembers "secret")
    (clean_hmacToken (state.jwt.refreshClaims deps "user@example.com" ⟨1⟩ moment).toMembers "secret")

theorem headers_tokens :
    extractAccessCookie headers state.cookieConfig =
      some (state.jwt.accessToken deps "user@example.com" moment) ∧
    extractRefreshCookie headers state.cookieConfig =
      some (state.jwt.refreshToken deps "user@example.com" ⟨1⟩ moment) :=
  extract_tokenHeaders state.cookieConfig _ _

theorem accessVerdict_late : state.jwt.accessVerdict deps
    (state.jwt.accessToken deps "user@example.com" moment) (moment + 1000) = .error .Expired := by
  rw [JwtService.accessVerdict_accessToken, JwtService.expiryVerdict]
  exact (if_neg (by decide)).trans (if_pos (by decide))

end Sample

/-- A client whose access token expired, on either path. -/
theorem rotation_paths_agree_sample :
    let refreshed := (refreshHandler Sample.deps Sample.state Sample.headers none).play
      (fun _ => Sample.answer) 0
    let checked := (authCheckHandler Sample.deps Sample.state Sample.headers).play
      (fun _ => Sample.answer) 0
    kvCalls checked.1 = kvCalls refreshed.1 ∧
      (∀ w w', Leaves w (kvCalls checked.1) w' ↔ Leaves w (kvCalls refreshed.1) w') ∧
      (∀ f, Revokes Sample.deps checked.1 f ↔ Revokes Sample.deps refreshed.1 f) ∧
      checked.2.granted Sample.state = refreshed.2.granted Sample.state := by
  obtain ⟨haccess, hrefresh⟩ := Sample.headers_tokens
  exact rotation_paths_agree Sample.deps Sample.state Sample.headers Sample.headers none _ _ _ _ rfl
    rfl hrefresh hrefresh haccess Sample.accessVerdict_late fun _ _ => rfl

end SvcAuth
