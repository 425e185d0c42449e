import SvcAuth.OrderlyClients
import SvcAuth.RevocationLookup
import SvcAuth.SessionIdentity
import SvcAuth.TokenLifetimes
import SvcAuth.LogoutRevocation

/-! How long a user stays in after being cut off. Revocation stops the refresh tokens of a
family and leaves alone what is out already: an access token is never looked up. So what
bounds the rest of a session is the lifetime of the tokens signed before, and of a refresh
token where a client presents one as an access cookie. -/
namespace SvcAuth
open Interleave JsonWebToken RevisionBucket RefreshTokenStore

section Assumptions

/-- Some response put this token into the access or the refresh cookie of a client. -/
def SentInCookie (S : AppState) (responses : ℕ → Option Response) (jwt : String) : Prop :=
  ∃ t r, responses t = some r ∧ (r.Sets S.cookieConfig.accessCookieName jwt ∨
    r.Sets S.cookieConfig.refreshCookieName jwt)

/-- Clients cannot sign: an access cookie that would pass was sent to a client before, in
either cookie. -/
def AccessUnforged (D : Deps) (S : AppState) : Assumption
  | _, responses, .arrive _ (.check headers) => ∀ jwt,
      extractAccessCookie headers S.cookieConfig = some jwt →
      (∃ now claims, S.jwt.accessVerdict D jwt now = .ok claims) → SentInCookie S responses jwt
  | _, _, _ => True

/-- No client signs a token of either kind, and no lookup of a stored marker fails. -/
def Guarded (D : Deps) (S : AppState) : Assumption :=
  Both (Both (Unforged D S) (AccessUnforged D S)) (LookupsAnswered D)

end Assumptions

/-- The store holds a row of the user in this family. -/
def World.FamilyOf (D : Deps) (w : World) (email : String) (f : Uuid) : Prop :=
  ∃ id row, w.RowOf D id row ∧ row.email = email ∧ row.familyId = f

/-- The user is cut off: no request is under way, every family that has a row of the user is
revoked and stays so, and the user does not log in again. -/
structure CutOff (D : Deps) (email : String) (c : ServiceState) (ms : List Event) : Prop where
  quiet : ∀ t, c.threads t ≠ none → ∃ r, c.response t = some r
  revoked : ∀ f, c.world.FamilyOf D email f → c.world.Revoked D f
  kept : ∀ f, c.world.FamilyOf D email f → ¬ Expired ms (markerKey D f)
  locked : ∀ t idToken, .call t (.verifyIdToken idToken) (.ok ⟨email⟩) ∉ ms

/-- Request `t` comes with this access cookie, and at a reading of the clock it passes for
the user. -/
def Admitted (D : Deps) (S : AppState) (ms : List Event) (t : ℕ) (jwt email : String) (now : ℕ) :
    Prop :=
  ∃ headers claims, .arrive t (.check headers) ∈ ms ∧
    extractAccessCookie headers S.cookieConfig = some jwt ∧ .call t .utcNow now ∈ ms ∧
    S.jwt.accessVerdict D jwt now = .ok claims ∧ claims.sub = email

/-- The token was signed by the time `clock` and passes at `now` within its lifetime, which
is that of a refresh token if it is one. -/
def Outlasts (S : AppState) (D : Deps) (email jwt : String) (clock now : ℕ) : Prop :=
  (∃ signed ≤ clock, jwt = S.jwt.accessToken D email signed ∧
    now ≤ clock + S.jwt.accessTtlSecs.toNat + clockSkewLeewaySecs) ∨
  ∃ id, ∃ signed ≤ clock, jwt = S.jwt.refreshToken D email id signed ∧
    now ≤ clock + S.jwt.refreshTtlSecs.toNat + clockSkewLeewaySecs

variable {D : Deps} {S : AppState} {G : Assumption} {clock : ℕ} {ls ms : List Event}
  {s : ServiceState} {c d : PhaseState} {l : Event} {t : ℕ} {f : Uuid} {email jwt : String}
  {now signed : ℕ}

section Passing

theorem expiry_le (signed : ℕ) (ttl : UInt64) :
    (Int64.ofNat signed + ttl.toInt64).toInt ≤ signed + ttl.toNat := by
  rw [expiry_toInt, Int.bmod_def]
  split
  · omega
  · omega

theorem expiryVerdict_until {T : Type} {claims claims' : T} {ttl : UInt64}
    (h : JwtService.expiryVerdict D (Int64.ofNat signed + ttl.toInt64) now claims = .ok claims') :
    claims' = claims ∧ now ≤ signed + ttl.toNat + clockSkewLeewaySecs := by
  have hpasses := (JwtService.expiryVerdict_ok D).mp ⟨claims', h⟩
  have hle := expiry_le signed ttl
  unfold JwtService.expiryVerdict at h
  split at h
  · cases h
  · split at h
    · cases h
    · cases h
      have hleeway := le_leewayStart clockSkewLeewaySecs now
      refine ⟨rfl, ?_⟩
      omega

theorem accessToken_until {claims : AccessClaims}
    (h : S.jwt.accessVerdict D (S.jwt.accessToken D email signed) now = .ok claims) :
    claims.sub = email ∧ now ≤ signed + S.jwt.accessTtlSecs.toNat + clockSkewLeewaySecs := by
  rw [JwtService.accessVerdict_accessToken] at h
  obtain ⟨rfl, huntil⟩ := expiryVerdict_until h
  exact ⟨rfl, huntil⟩

theorem refreshToken_until {id : Uuid} {claims : AccessClaims}
    (h : S.jwt.accessVerdict D (S.jwt.refreshToken D email id signed) now = .ok claims) :
    claims.sub = email ∧ now ≤ signed + S.jwt.refreshTtlSecs.toNat + clockSkewLeewaySecs := by
  rw [JwtService.accessVerdict_refreshToken] at h
  obtain ⟨rfl, huntil⟩ := expiryVerdict_until h
  exact ⟨rfl, huntil⟩

theorem accessVerdict_ne_empty {claims : AccessClaims}
    (h : S.jwt.accessVerdict D jwt now = .ok claims) : jwt ≠ "" :=
  Library.decode_ne_empty (JwtService.ok_of_mapError h)

end Passing

section Times

/-- The two times at which the tokens of an attempt are signed. -/
def Outcome.times : Outcome → List ℕ
  | .granted d => [d.signed, d.refreshed]
  | .opened p => [p.signed, p.refreshed]
  | _ => []

def Phase.times : Phase → List ℕ
  | .mint _ _ _ signed | .refresh _ _ _ signed _ => [signed]
  | .created _ _ _ signed _ refreshed => [signed, refreshed]
  | .store _ d | .stamp _ d | .mark _ d _ => [d.signed, d.refreshed]
  | .loginMint _ _ signed | .loginRefresh _ _ signed _ => [signed]
  | .loginFamily _ _ signed _ refreshed | .loginCreated _ _ signed _ refreshed _ =>
    [signed, refreshed]
  | .loginStore _ p => [p.signed, p.refreshed]
  | .settle _ o | .done _ o _ => o.times
  | _ => []

theorem Moves.times {ph ph' : Phase} {e : Calls.Event} (h : Moves D S ph e ph') {now : ℕ}
    (hnow : now ∈ ph'.times) : now ∈ ph.times ∨ e = ⟨.utcNow, now⟩ := by
  cases h with
  | access =>
    cases List.mem_singleton.mp hnow
    exact .inr rfl
  | loginAccess =>
    cases List.mem_singleton.mp hnow
    exact .inr rfl
  | refresh =>
    rcases List.mem_pair.mp hnow with rfl | rfl
    · exact .inl (.head _)
    · exact .inr rfl
  | loginRefresh =>
    rcases List.mem_pair.mp hnow with rfl | rfl
    · exact .inl (.head _)
    · exact .inr rfl
  | _ => first | exact .inl hnow | cases hnow

theorem tokens_times {o : Outcome} {a b : String} (h : o.tokens D S = some (a, b)) :
    ∃ row signed refreshed, o.row = some row ∧ signed ∈ o.times ∧ refreshed ∈ o.times ∧
      a = S.jwt.accessToken D row.email signed ∧
      b = S.jwt.refreshToken D row.email row.id refreshed := by
  cases o with
  | granted d => cases h; exact ⟨_, _, _, rfl, .head _, .tail _ (.head _), rfl, rfl⟩
  | opened p => cases h; exact ⟨_, _, _, rfl, .head _, .tail _ (.head _), rfl, rfl⟩
  | _ => cases h

theorem PhaseRun.times_read (h : PhaseRun D S G clock ls c) {ph : Phase}
    (ht : c.threads t = some ph) {now : ℕ} (hnow : now ∈ ph.times) : .call t .utcNow now ∈ ls := by
  refine h.known (P := fun ls t ph => ∀ now ∈ ph.times, .call t .utcNow now ∈ ls)
    ?_ ?_ ?_ t ph ht now hnow
  · exact fun ls l t ph ih now hnow => log_grows ls l (ih now hnow)
  · intro ls t q ph hs now hnow
    cases hs <;> cases hnow
  · intro ls c t ph o r ph' w prior ht ih hm hw now hnow
    rcases hm.times hnow with hold | heq
    · exact log_grows _ _ (ih now hold)
    · cases heq
      exact List.mem_concat_self

end Times

section CutOff

theorem CutOff.mono {ms' : List Event} (h : CutOff D email s ms') (hsub : ms ⊆ ms') :
    CutOff D email s ms where
  quiet := h.quiet
  revoked := h.revoked
  kept f hf := fun ⟨e, he, hgone⟩ => h.kept f hf ⟨e, hsub he, hgone⟩
  locked t idToken hl := h.locked t idToken (hsub hl)

theorem CutOff.silent (h : CutOff D email s ms) (hm : Mirrors D S s c)
    (hseg : PhaseSegment D S G c ls d) {ph : Phase} (ht : c.threads t = some ph) :
    d.threads t = some ph ∧ ∀ o r, .call t o r ∉ ls := by
  have hthere : s.threads t ≠ none := by
    have hrel := hm.2 t
    rw [ht] at hrel
    intro hnone
    rw [hnone] at hrel
    cases hrel
  obtain ⟨r, hr⟩ := h.quiet t hthere
  rw [hm.response] at hr
  obtain ⟨ph', ht', hview⟩ := finished_iff.mp hr
  rw [ht] at ht'
  cases ht'
  exact Trace.finished hseg ht hview

/-- A step that writes no row for the user brings no family of the user into the store. -/
theorem step_families {e : PhaseState} (hs : Step service (machine D S) (start D S) d l e)
    (hwrite : ∀ {t ph ph' o r k row}, l = .call t o r → d.threads t = some ph →
      Moves D S ph ⟨o, r⟩ ph' → o.write = some (k, .token row) → row.email ≠ email)
    (hf : e.world.FamilyOf D email f) : d.world.FamilyOf D email f := by
  obtain ⟨id, row, hrow, hemail, hfamily⟩ := hf
  refine ⟨id, row, ?_, hemail, hfamily⟩
  obtain ⟨cell, hcell, hv⟩ := World.rowOf_iff.mp hrow
  rcases step_bucket hs with hsame | ⟨t, o, r, ph, ph', k, v, hl, ht, hmove, hw, hput, -⟩ |
    ⟨p, -, hdrop⟩
  · rw [hsame] at hcell
    exact World.rowOf_iff.mpr ⟨cell, hcell, hv⟩
  · rw [hput] at hcell
    rcases Bucket.put_cases hcell with ⟨rfl, rfl⟩ | ⟨-, hold⟩
    · have hv' : v = .token row := hv
      rw [hv'] at hw
      exact absurd hemail (hwrite hl ht hmove hw)
    · exact World.rowOf_iff.mpr ⟨cell, hold, hv⟩
  · rw [hdrop] at hcell
    exact World.rowOf_iff.mpr ⟨cell, (Bucket.drop_cells hcell).1, hv⟩

/-- What remains of the user in the store: no family but those that were revoked, in the store
or in the hands of a request that began since, and no row was written for the user. -/
structure ShutOut (D : Deps) (email : String) (c : PhaseState) (ms : List Event) (d : PhaseState) :
    Prop where
  rows : ∀ f, d.world.FamilyOf D email f → c.world.FamilyOf D email f
  held : ∀ t ph x, c.threads t = none → d.threads t = some ph → ph.held = some x →
    x.row.email = email → c.world.FamilyOf D email x.row.familyId
  writes : ∀ t o r k row, .call t o r ∈ ms → o.write = some (k, .token row) → row.email ≠ email

variable (h : PhaseRun D S (Guarded D S) clock ls c) (hm : Mirrors D S s c)
  (hcut : CutOff D email s ms)

include h hm hcut

theorem CutOff.never_cleared (hseg : PhaseSegment D S (Guarded D S) c ms d)
    (hf : c.world.FamilyOf D email f) (hidle : c.threads t = none) {ph : Phase}
    (ht : d.threads t = some ph) : ph.cleared ≠ some f := by
  rw [← hm.1] at hf
  have hmarker := hcut.revoked f hf
  rw [hm.1] at hmarker
  have hkept := hcut.kept f hf
  refine PhaseRun.never_cleared h hseg hmarker hkept ?_ hidle ht
  exact fun u r hl => PhaseRun.answered (fun _ _ _ hg => hg.2) h hseg hmarker hkept hl

/-- A step writes no row for the user. -/
theorem ShutOut.write (hseg : PhaseSegment D S (Guarded D S) c ms d) (hout : ShutOut D email c ms d)
    {ph ph' : Phase} {o : Op} {r : o.Reply} {k : KvKey} {row : RefreshToken}
    (ht : d.threads t = some ph) (hmove : Moves D S ph ⟨o, r⟩ ph')
    (hidle : c.threads t = none) (hw : o.write = some (k, .token row)) : row.email ≠ email := by
  have hrun := Trace.trans h hseg
  rintro rfl
  cases o with
  | put k' v =>
    cases hw
    rcases hmove.put_token with ⟨x, y, rfl, -, rfl⟩ | ⟨session, p, rfl, -, rfl⟩
    · obtain ⟨hemail, -⟩ := PhaseRun.held_handedOut (fun _ _ _ hg => hg.1.1) hrun ht rfl rfl
      have hfamily := hout.held t _ y.held hidle ht rfl hemail
      exact CutOff.never_cleared h hm hcut hseg hfamily hidle ht rfl
    · obtain ⟨tok, hl⟩ := PhaseRun.login_email hrun ht rfl
      rcases List.mem_append.mp hl with hold | hnew
      · obtain ⟨ph₀, h₀⟩ := Trace.called h hold
        rw [hidle] at h₀
        cases h₀
      · exact hcut.locked t tok hnew
  | updateIf k' v rev =>
    cases hw
    obtain ⟨x, y, now, rfl, -, -, hv, -⟩ := hmove.updateIf
    cases hv
    have hfamily := hout.held t _ y.held hidle ht rfl rfl
    exact CutOff.never_cleared h hm hcut hseg hfamily hidle ht rfl
  | _ => cases hw

theorem CutOff.shutOut (hseg : PhaseSegment D S (Guarded D S) c ms d) : ShutOut D email c ms d := by
  have hall : CutOff D email s ms → ShutOut D email c ms d := by
    refine hseg.invariant (I := fun ms d => CutOff D email s ms → ShutOut D email c ms d) ?_ ?_
    · intro _
      refine ⟨fun f hf => hf, fun t ph x hidle ht => ?_, fun t o r k row hl => by cases hl⟩
      rw [hidle] at ht
      cases ht
    · intro ms d l e prior ih hs hcut
      have hcut' := hcut.mono (log_grows ms l)
      have hout := ih hcut'
      have hidle : ∀ {t o r}, l = .call t o r → c.threads t = none := by
        rintro t o r rfl
        cases hthread : c.threads t with
        | none => rfl
        | some ph =>
          have hsilent := hcut.silent hm (Trace.snoc prior hs) hthread
          exact absurd List.mem_concat_self (hsilent.2 o r)
      have hwrite : ∀ {t ph ph' o r k row}, l = .call t o r → d.threads t = some ph →
          Moves D S ph ⟨o, r⟩ ph' → o.write = some (k, .token row) → row.email ≠ email :=
        fun hl ht hmove hw => ShutOut.write h hm hcut' prior hout ht hmove (hidle hl) hw
      constructor
      · exact fun f hf => hout.rows f (step_families hs.1 hwrite hf)
      · intro t ph x hnone ht hx hemail
        rcases hs.1.thread ht with hold | ⟨q, -, -, rfl⟩ | ⟨ph₀, o, k, r, rfl, h₀, hv, rfl, -⟩
        · exact hout.held t ph x hnone hold hx hemail
        · rw [(starts D S q).held] at hx
          cases hx
        · rcases (moves_of_view D S hv r).held with hsame | ⟨-, jti, row, rev, heq, hrow⟩
          · exact hout.held t ph₀ x hnone h₀ (hsame ▸ hx) hemail
          · cases heq
            rw [hrow] at hx
            cases hx
            obtain ⟨cell, hcell, hvalue, -⟩ := step_read hs.1
            exact hout.rows _ ⟨jti, row, World.rowOf_iff.mpr ⟨cell, hcell, hvalue⟩, hemail, rfl⟩
      · intro t o r k row hl hw
        rcases List.mem_append.mp hl with hold | hnew
        · exact hout.writes t o r k row hold hw
        · cases List.mem_singleton.mp hnew
          obtain ⟨ph, ph', ht, hmove, -⟩ := step_call hs.1
          exact hwrite rfl ht hmove hw
  exact hall hcut

/-- Whoever is sent a token for the user came before the cut-off, and so was the token signed. -/
theorem CutOff.sent_before (hseg : PhaseSegment D S (Guarded D S) c ms d) {r : Response}
    {claims : AccessClaims} (hr : d.result (machine D S) t = some r)
    (hset : r.Sets S.cookieConfig.accessCookieName jwt ∨ r.Sets S.cookieConfig.refreshCookieName jwt)
    (hpasses : S.jwt.accessVerdict D jwt now = .ok claims) (hsub : claims.sub = email) :
    c.threads t ≠ none ∧ Outlasts S D email jwt c.world.clock now := by
  have hrun := Trace.trans h hseg
  have hne := accessVerdict_ne_empty hpasses
  obtain ⟨ph, ht, hview⟩ := finished_iff.mp hr
  obtain ⟨o, row, ho, hrow, hjwt⟩ : ∃ o row, ph.outcome = some o ∧ o.row = some row ∧
      ((∃ signed ∈ o.times, jwt = S.jwt.accessToken D row.email signed) ∨
        ∃ signed ∈ o.times, jwt = S.jwt.refreshToken D row.email row.id signed) := by
    rcases hset with hset | hset
    · obtain ⟨o, b, ho, htokens⟩ := (sets_access hview hne).mp hset
      obtain ⟨row, signed, refreshed, hrow, hsigned, -, ha, -⟩ := tokens_times htokens
      exact ⟨o, row, ho, hrow, .inl ⟨signed, hsigned, ha⟩⟩
    · obtain ⟨o, a, ho, htokens⟩ := (sets_refresh hview hne).mp hset
      obtain ⟨row, signed, refreshed, hrow, -, hrefreshed, -, hb⟩ := tokens_times htokens
      exact ⟨o, row, ho, hrow, .inr ⟨refreshed, hrefreshed, hb⟩⟩
  have hemail : row.email = email := by
    rcases hjwt with ⟨signed, -, rfl⟩ | ⟨signed, -, rfl⟩
    · exact (accessToken_until hpasses).1.symm.trans hsub
    · exact (refreshToken_until hpasses).1.symm.trans hsub
  have hplaced : Placed D (ls ++ ms) t row := (PhaseRun.outcome_row hrun ht ho hrow).1
  cases hthere : c.threads t with
  | none =>
    -- the request stored the row of its token since the cut-off
    exfalso
    rcases List.mem_append.mp hplaced with hold | hnew
    · obtain ⟨ph₀, h₀⟩ := Trace.called h hold
      rw [hthere] at h₀
      cases h₀
    · exact (CutOff.shutOut h hm hcut hseg).writes t _ _ _ row hnew rfl hemail
  | some ph₀ =>
    refine ⟨by simp, ?_⟩
    obtain ⟨hsame, -⟩ := hcut.silent hm hseg hthere
    rw [ht] at hsame
    cases hsame
    have hsigned : ∀ signed ∈ o.times, signed ≤ c.world.clock := by
      intro signed hmem
      have htimes : signed ∈ ph.times := by
        cases ph <;> cases ho <;> exact hmem
      exact (PhaseSegment.read_between h (PhaseRun.times_read h hthere htimes)).2
    rcases hjwt with ⟨signed, hmem, rfl⟩ | ⟨signed, hmem, rfl⟩
    · have hlast := (accessToken_until hpasses).2
      have hbefore := hsigned signed hmem
      exact .inl ⟨signed, hbefore, by rw [hemail], by omega⟩
    · have hlast := (refreshToken_until hpasses).2
      have hbefore := hsigned signed hmem
      exact .inr ⟨row.id, signed, hbefore, by rw [hemail], by omega⟩

end CutOff

/-- A user that was cut off is out as soon as the tokens run out that were signed by then, if
clients can sign neither kind and the markers that are stored can be read. No request that
arrives later is sent a token that passes for the user; and what still passes
at `/auth/check` is an access token, for at most its lifetime and the leeway, or a refresh
token presented as an access cookie, for at most the lifetime of a refresh token. -/
theorem exposure_bounded (D : Deps) (S : AppState) (clock : ℕ) (ls ms : List Event)
    (c d : ServiceState) (email : String) (h : Run D S (Guarded D S) clock ls c)
    (hcut : CutOff D email c ms) (hseg : Segment D S (Guarded D S) c ms d) :
    (∀ t q r jwt now claims, .arrive t q ∈ ms → d.response t = some r →
      r.Sets S.cookieConfig.accessCookieName jwt ∨ r.Sets S.cookieConfig.refreshCookieName jwt →
      S.jwt.accessVerdict D jwt now = .ok claims → claims.sub ≠ email) ∧
    ∀ t jwt now, Admitted D S ms t jwt email now → Outlasts S D email jwt c.world.clock now := by
  obtain ⟨c', hc, hm⟩ := Segment.phases (mirrors_initial _) h
  obtain ⟨d', hd, hm'⟩ := Segment.phases hm hseg
  rw [hm.1]
  constructor
  · intro t q r jwt now claims hq hr hset hpasses hsub
    rw [hm'.response] at hr
    have hidle := ((Trace.arrived hd).1 t q hq).1
    exact (CutOff.sent_before hc hm hcut hd hr hset hpasses hsub).1 hidle
  · rintro t jwt now ⟨headers, claims, hq, hjwt, -, hpasses, hsub⟩
    obtain ⟨before, after, e, e', rfl, hbefore, hstep, -⟩ := Trace.at_label hd hq
    obtain ⟨u, r, hr, hset⟩ := hstep.2.1.2 jwt hjwt ⟨now, claims, hpasses⟩
    have hcut' := hcut.mono (List.subset_append_left before _)
    exact (CutOff.sent_before hc hm hcut' hbefore hr hset hpasses hsub).2

section Sample

theorem accessUnforged_other {w : World} {responses : ℕ → Option Response}
    (h : ∀ t headers, l ≠ .arrive t (.check headers)) : AccessUnforged D S w responses l := by
  cases l with
  | arrive t q =>
    cases q with
    | check headers => exact absurd rfl (h t headers)
    | _ => trivial
  | _ => trivial

/-- The log up to the replay of token 1. -/
def Sample.revokedLog : List Event :=
  openingLog deps moment ++ rotationLog deps state moment ++ reuseLog deps state moment

/-- Fifteen minutes pass, and request 3 comes with the access token of the login. -/
def Sample.visitLog : List Event :=
  [.env ⟨900, fun _ => false⟩, .arrive 3 (.check headers), .call 3 .utcNow (moment + 900 : ℕ)]

theorem Sample.revoked_run : PhaseRun deps state (Guarded deps state) moment revokedLog
    (reused deps moment) := by
  have hG : Permits state (Both (Unforged deps state) (LookupsAnswered deps)) :=
    permits_unforged.both permits_lookupsAnswered
  have hrun := reuse_run deps state moment hG live
  refine Trace.mono (fun c l d hl hs => ⟨hs.1, ⟨hs.2.1, accessUnforged_other ?_⟩, hs.2.2⟩) hrun
  rintro t headers rfl
  simp [revokedLog, openingLog, loginLog, rotationLog, reuseLog, draftLog, replayLog, lookupLog,
    signLog, commitLog, revokeLog, Request.loggingIn, Request.presenting] at hl

theorem World.FamilyOf.put {w : World} {k : KvKey} {v : Entry}
    (hv : ∀ row, v = .token row → row.familyId = f)
    (hw : ∀ g, w.FamilyOf D email g → g = f) : ∀ g, (w.put k v).FamilyOf D email g → g = f := by
  rintro g ⟨id, row, ⟨rev, hread⟩, hemail, hfamily⟩
  by_cases hk : rowKey D id = k
  · rw [hk, World.put_read_same] at hread
    have hrow := congrArg Prod.fst (Option.some.inj hread)
    exact hfamily.symm.trans (hv row hrow)
  · rw [World.put_read_other _ _ hk] at hread
    exact hw g ⟨id, row, ⟨rev, hread⟩, hemail, hfamily⟩

theorem Sample.revoked_family :
    ∀ g, (reused deps moment).world.FamilyOf deps email g → g = serial 2 := by
  have hlogin : ∀ g, (opened deps moment).world.FamilyOf deps email g → g = serial 2 := by
    refine World.FamilyOf.put (w := ((World.initial moment).mint (serial 1)).mint (serial 2)) ?_ ?_
    · rintro row ⟨⟩
      rfl
    · rintro g ⟨id, row, ⟨rev, hread⟩, -⟩
      cases hread
  have hrotation : ∀ g, (rotated deps moment).world.FamilyOf deps email g → g = serial 2 := by
    refine World.FamilyOf.put ?_ (World.FamilyOf.put ?_ hlogin)
    · rintro row ⟨⟩
      rfl
    · rintro row ⟨⟩
      rfl
  exact World.FamilyOf.put (by rintro row ⟨⟩) hrotation

theorem Sample.revoked_cutOff (hm : Mirrors deps state s (reused deps moment)) :
    CutOff deps "user@example.com" s visitLog where
  quiet t ht := by
    rw [hm.response]
    cases hthread : (reused deps moment).threads t with
    | none =>
      have hrel := hm.2 t
      rw [hthread] at hrel
      cases hs : s.threads t with
      | none => exact absurd hs ht
      | some p =>
        rw [hs] at hrel
        cases hrel
    | some ph =>
      have hle : t ≤ 2 := by
        by_contra hlate
        rw [reused_idle deps moment (by omega)] at hthread
        cases hthread
      interval_cases t
      · exact ⟨_, finished_iff.mpr ⟨_, rfl, rfl⟩⟩
      · exact ⟨_, finished_iff.mpr ⟨_, rfl, rfl⟩⟩
      · exact ⟨_, finished_iff.mpr ⟨_, rfl, rfl⟩⟩
  revoked f hf := by
    rw [hm.1] at hf ⊢
    rw [revoked_family f hf]
    exact ⟨_, _, reused_marker deps moment⟩
  kept f hf := by simp [Expired, visitLog]
  locked t idToken hl := by
    simp only [visitLog, List.mem_cons, List.not_mem_nil, or_false] at hl
    rcases hl with hl | hl | hl <;> cases hl

/-- The visit is a segment behind the run: the tokens in the cookies were sent to the client. -/
theorem Sample.visit_segment {claims : AccessClaims} (hpasses : state.jwt.accessVerdict deps
    (state.jwt.accessToken deps "user@example.com" moment) (moment + 900) = .ok claims) :
    ∃ d, PhaseSegment deps state (Guarded deps state) (reused deps moment) visitLog d := by
  let waited : PhaseState :=
    ⟨(reused deps moment).world.pass ⟨900, fun _ => false⟩, (reused deps moment).threads⟩
  have hlogin : waited.threads 0 =
      some (.done ⟨.token, none⟩ (.opened (firstLogin Sample.moment)) (serial 3)) := rfl
  have hallowed : Guarded deps state waited.world (waited.result (machine deps state))
      (.arrive 3 (.check headers)) := by
    refine ⟨⟨fun jwt hjwt _ => ?_, fun jwt hjwt _ => ?_⟩, trivial⟩
    · have hrefresh : extractRefreshCookie headers state.cookieConfig = some jwt := hjwt
      rw [headers_tokens.2] at hrefresh
      cases hrefresh
      exact sent_by_done hlogin rfl
    · rw [headers_tokens.1] at hjwt
      cases hjwt
      have hne := state.jwt.accessToken_ne_empty deps "user@example.com" moment
      exact ⟨0, _, done_responds hlogin, .inl ((sets_access (view_done _ _ _) hne).mpr
        ⟨.opened (firstLogin Sample.moment), _, rfl, rfl⟩)⟩
  have hstart : start deps state (.check headers) =
      .accessVerify (extractSessionCookie deps headers state.cookieConfig)
        (state.jwt.accessToken deps "user@example.com" moment)
        (extractRefreshCookie headers state.cookieConfig) := by
    rw [start, startCheck, headers_tokens.1]
  have hpass : PhaseSegment deps state (Guarded deps state) (reused deps moment)
      [.env ⟨900, fun _ => false⟩] waited :=
    PhaseSegment.passage fun _ => ⟨⟨trivial, trivial⟩, trivial⟩
  have hidle : waited.threads 3 = none := reused_idle deps moment (t := 3) (by decide)
  have hcheck : PhaseSegment deps state (Guarded deps state) waited
      [.arrive 3 (.check headers), .call 3 .utcNow (moment + 900 : ℕ)] (waited.move waited.world 3
        (.reply (extractSessionCookie deps headers state.cookieConfig) (.status 200))) := by
    refine .arrive hidle hallowed ?_
    rw [hstart]
    refine .answer rfl ?_ (.utcNow waited.world) (fun _ => ⟨⟨trivial, trivial⟩, trivial⟩) (.nil _)
    simp only [hpasses]
  exact ⟨_, Trace.trans hpass hcheck⟩

/-- Fifteen minutes after the revocation the access token of the login still passes, for the
leeway at most. -/
theorem exposure_bounded_sample : ∃ ls c ms d jwt,
    Run Sample.deps Sample.state (Guarded Sample.deps Sample.state) Sample.moment ls c ∧
    CutOff Sample.deps "user@example.com" c ms ∧
    Segment Sample.deps Sample.state (Guarded Sample.deps Sample.state) c ms d ∧
    Admitted Sample.deps Sample.state ms 3 jwt "user@example.com" (Sample.moment + 900) ∧
    Outlasts Sample.state Sample.deps "user@example.com" jwt c.world.clock
      (Sample.moment + 900) := by
  have hpasses : Sample.state.jwt.accessVerdict Sample.deps
      (Sample.state.jwt.accessToken Sample.deps "user@example.com" Sample.moment)
      (Sample.moment + 900) =
        .ok (Sample.state.jwt.accessClaims "user@example.com" Sample.moment) := by
    rw [JwtService.accessVerdict_accessToken, JwtService.expiryVerdict]
    exact (if_neg (by decide)).trans (if_neg (by decide))
  obtain ⟨d, hd⟩ := Sample.visit_segment hpasses
  obtain ⟨c, hc, hm⟩ := PhaseSegment.service (mirrors_initial _) Sample.revoked_run
  obtain ⟨d', hd', -⟩ := PhaseSegment.service hm hd
  have hcut := Sample.revoked_cutOff hm
  have hadmitted : Admitted Sample.deps Sample.state Sample.visitLog 3
      (Sample.state.jwt.accessToken Sample.deps "user@example.com" Sample.moment)
      "user@example.com" (Sample.moment + 900) :=
    ⟨Sample.headers, _, .tail _ (.head _), Sample.headers_tokens.1,
      .tail _ (.tail _ (.head _)), hpasses, rfl⟩
  exact ⟨_, c, _, d', _, hc, hcut, hd', hadmitted,
    (exposure_bounded _ _ _ _ _ _ _ _ hc hcut hd').2 _ _ _ hadmitted⟩

end Sample

end SvcAuth
