import SvcAuth.HandedOut
import SvcAuth.PhaseFollows
import SvcAuth.SampleDeployment
import SvcAuth.FirstFamily

/-! The email of a session. A family has one login, and every row and token of it carries
the email that login verified. -/
namespace SvcAuth
open Interleave RevisionBucket RefreshTokenStore

/-- Request `t` is the login that opened family `f`, for this verified email. -/
def Opened (D : Deps) (ls : List Event) (t : ℕ) (f : Uuid) (email : String) : Prop :=
  Arrived ls t .login ∧ (∃ idToken, .call t (.verifyIdToken idToken) (.ok ⟨email⟩) ∈ ls) ∧
    ∃ row, Stored D ls t row ∧ row.familyId = f

variable {D : Deps} {S : AppState} {G : Assumption} {clock : ℕ} {ls ms : List Event}
  {c d : PhaseState} {l : Event} {t u : ℕ}

theorem Opened.mono (hsub : ls ⊆ ms) {f : Uuid} {email : String} (h : Opened D ls t f email) :
    Opened D ms t f email := by
  obtain ⟨harrived, ⟨tok, htok⟩, row, hs, hf⟩ := h
  exact ⟨harrived.mono hsub, ⟨tok, hsub htok⟩, row, hs.mono hsub, hf⟩

section Login

theorem PhaseRun.login_email (h : PhaseRun D S G clock ls c) {ph : Phase} {email : String}
    (ht : c.threads t = some ph) (he : ph.email = some email) :
    ∃ tok, .call t (.verifyIdToken tok) (.ok ⟨email⟩) ∈ ls := by
  refine h.known (P := fun ls t ph => ∀ email, ph.email = some email →
    ∃ tok, .call t (.verifyIdToken tok) (.ok ⟨email⟩) ∈ ls) ?_ ?_ ?_ t ph ht email he
  · intro ls l t ph ih email he
    exact (ih email he).imp fun _ hl => log_grows ls l hl
  · intro ls t q ph hs email he
    rw [hs.email] at he
    cases he
  · intro ls c t ph o r ph' w prior ht ih hm hw email he
    rcases hm.email he with hold | ⟨s, tok, claims, rfl, heq, rfl⟩
    · exact (ih email hold).imp fun _ hl => log_grows _ _ hl
    · cases heq
      exact ⟨tok, List.mem_concat_self⟩

theorem PhaseRun.verified_once (h : PhaseRun D S G clock ls c) {tok tok' : String}
    {r r' : Except String OidcClaims} (hl : .call t (.verifyIdToken tok) r ∈ ls)
    (hl' : .call t (.verifyIdToken tok') r' ∈ ls) : r = r' := by
  have hfirst : ∀ {before e e' tok r tok' r'}, PhaseRun D S G clock before e →
      GuardedStep service (machine D S) (start D S) G e (.call t (.verifyIdToken tok) r) e' →
      .call t (.verifyIdToken tok') r' ∉ before := by
    intro before e e' tok r tok' r' hbefore hstep hold
    obtain ⟨ph, ph', ht, hm, -⟩ := step_call hstep.1
    obtain ⟨s, rfl⟩ := hm.verifyIdToken
    obtain ⟨ph, ht', hne⟩ := PhaseSegment.after (Q := fun _ _ ph => ∀ s tok, ph ≠ .login s tok)
      (fun _ _ _ _ hm => hm.leaves_login) (fun _ _ _ _ _ _ hm _ => hm.leaves_login) hbefore hold
    rw [ht] at ht'
    cases ht'
    exact hne s tok rfl
  rcases Trace.first_of_two h hl hl' with heq | ⟨before, _, e, e', -, hbefore, hstep, hold⟩ |
    ⟨before, _, e, e', -, hbefore, hstep, hold⟩
  · cases heq
    rfl
  · exact absurd hold (hfirst hbefore hstep)
  · exact absurd hold (hfirst hbefore hstep)

theorem Opened.unique (h : PhaseRun D S G clock ls c) {f : Uuid} {email email' : String}
    (ho : Opened D ls t f email) (ho' : Opened D ls u f email') : t = u ∧ email = email' := by
  -- a login stores its row in a family that is in no row stored before
  have hfirst : ∀ {before after e e' t row r}, ls = before ++ .call t (.put (rowKey D row.id)
      (.token row)) r :: after → Arrived ls t .login → PhaseRun D S G clock before e →
      GuardedStep service (machine D S) (start D S) G e
        (.call t (.put (rowKey D row.id) (.token row)) r) e' → ¬ Published D before row.familyId := by
    intro before after e e' t row r hls harrived hbefore hstep
    obtain ⟨ph, ph', ht, hm, -⟩ := step_call hstep.1
    rcases hm.put_token with ⟨x, y, rfl, -⟩ | ⟨s, p, rfl, -, rfl⟩
    · have hsub : before ⊆ ls := hls ▸ List.subset_append_left _ _
      cases Arrived.unique h harrived ((PhaseRun.arrived hbefore ht rfl).mono hsub)
    · exact (PhaseRun.fresh hbefore).unpublished t _ p.family ht (by simp [Phase.pending])
  obtain ⟨harrived, ⟨tok, htok⟩, row, ⟨r, hl⟩, hf⟩ := ho
  obtain ⟨harrived', ⟨tok', htok'⟩, row', ⟨r', hl'⟩, hf'⟩ := ho'
  have htu : t = u := by
    rcases Trace.first_of_two h hl hl' with heq | ⟨before, after, e, e', hls, hbefore, hstep, hold⟩ |
      ⟨before, after, e, e', hls, hbefore, hstep, hold⟩
    · injection heq
    · exact absurd ⟨u, row', ⟨r', hold⟩, .inr (hf'.trans hf.symm)⟩
        (hfirst hls harrived hbefore hstep)
    · exact absurd ⟨t, row, ⟨r, hold⟩, .inr (hf.trans hf'.symm)⟩
        (hfirst hls harrived' hbefore hstep)
  subst htu
  have hclaims := Except.ok.inj (h.verified_once htok htok')
  exact ⟨rfl, congrArg OidcClaims.email hclaims⟩

end Login

section Identity

theorem PhaseRun.origin (hG : ∀ w r l, G w r l → Unforged D S w r l)
    (h : PhaseRun D S G clock ls c) : ∀ t row, Stored D ls t row →
      ∃ u, Opened D ls u row.familyId row.email := by
  refine h.invariant (I := fun ls _ => ∀ t row, Stored D ls t row →
    ∃ u, Opened D ls u row.familyId row.email) ?_ ?_
  · rintro t row ⟨r, hl⟩
    cases hl
  · intro ls c l d prior ih hs t row hstored
    rcases stored_snoc hstored with hold | ⟨r, rfl⟩
    · exact (ih t row hold).imp fun _ ho => ho.mono (log_grows _ _)
    · obtain ⟨ph, ph', ht, hm, -⟩ := step_call hs.1
      rcases hm.put_token with ⟨x, y, rfl, -, rfl⟩ | ⟨s, p, rfl, -, rfl⟩
      · -- the draft copies the family of the row it replaces and the email presented for it
        obtain ⟨hemail, -⟩ := PhaseRun.held_handedOut hG prior ht rfl rfl
        obtain ⟨v, hissued⟩ := (PhaseRun.held_found prior ht rfl).issued prior
        obtain ⟨u, ho⟩ := ih v _ hissued
        have ho' : Opened D ls u y.held.row.familyId y.email := hemail ▸ ho
        exact ⟨u, ho'.mono (log_grows _ _)⟩
      · obtain ⟨tok, htok⟩ := PhaseRun.login_email prior ht rfl
        exact ⟨t, (PhaseRun.arrived prior ht rfl).mono (log_grows _ _), ⟨tok, log_grows _ _ htok⟩,
          p.row, hstored, rfl⟩

/-- Request `t` works in family `f`: it found a row of it, or is the login that stores
its first row. -/
def InFamily (D : Deps) (ls : List Event) (t : ℕ) (f : Uuid) : Prop :=
  (∃ x, Found D ls t x ∧ x.row.familyId = f) ∨
    Arrived ls t .login ∧ ∃ row, Stored D ls t row ∧ row.familyId = f

theorem InFamily.row (h : PhaseRun D S G clock ls c) {f : Uuid} (hf : InFamily D ls t f) {ph : Phase}
    {o : Outcome} {row : RefreshToken} (ht : c.threads t = some ph) (ho : ph.outcome = some o)
    (hrow : o.row = some row) : row.familyId = f := by
  have hplaced := (h.outcome_row ht ho hrow).1
  rcases hf with ⟨x, hx, rfl⟩ | ⟨-, row', hs, rfl⟩
  · obtain ⟨ph', ht', hheld⟩ := hx.held h
    rw [ht] at ht'
    cases ht'
    have hheld' : o.held = some x := by
      cases ph <;> cases ho <;> exact hheld
    cases o with
    | granted d => cases hrow; cases hheld'; rfl
    | opened p => cases hheld'
    | _ => cases hrow
  · rw [hplaced.stored.only h hs]

theorem PhaseRun.in_family (h : PhaseRun D S G clock ls c) {ph : Phase} {o : Outcome}
    {row : RefreshToken} (ht : c.threads t = some ph) (ho : ph.outcome = some o)
    (hrow : o.row = some row) : InFamily D ls t row.familyId := by
  cases o with
  | granted x =>
    cases hrow
    exact .inl ⟨x.held, h.held_found ht (granted_held ho), rfl⟩
  | opened p =>
    cases hrow
    exact .inr ⟨h.arrived ht (opened_kind ho), p.row, (h.outcome_row ht ho rfl).1.stored, rfl⟩
  | _ => cases hrow

/-- The email of a session never changes. A family has one login; every row of the
family and every token handed out in it carries the email that login verified, and every
refresh token handed out in it names a row of it. -/
theorem session_identity (D : Deps) (S : AppState) (clock : ℕ) (ls : List Event) (c : ServiceState)
    (h : Run D S (Both (Unforged D S) NoExpiry) clock ls c) :
    (∀ t u f email email', Opened D ls t f email → Opened D ls u f email' →
      t = u ∧ email = email') ∧
    (∀ id row, c.world.RowOf D id row → ∃ u, Opened D ls u row.familyId row.email) ∧
    (∀ t r, c.response t = some r → Grants S r → ∃ f, InFamily D ls t f) ∧
    ∀ t r f, c.response t = some r → InFamily D ls t f →
      (∀ jwt, jwt ≠ "" → r.Sets S.cookieConfig.accessCookieName jwt →
        ∃ u email signed, Opened D ls u f email ∧ jwt = S.jwt.accessToken D email signed) ∧
      ∀ jwt, jwt ≠ "" → r.Sets S.cookieConfig.refreshCookieName jwt →
        ∃ u email id refreshed row, Opened D ls u f email ∧
          jwt = S.jwt.refreshToken D email id refreshed ∧ c.world.RowOf D id row ∧
          row.familyId = f := by
  obtain ⟨d, hd, hm⟩ := Segment.phases (mirrors_initial _) h
  have hG : ∀ w r l, Both (Unforged D S) NoExpiry w r l → Unforged D S w r l := fun _ _ _ h => h.1
  have horigin := PhaseRun.origin hG hd
  rw [hm.1]
  refine ⟨fun t u f email email' ho ho' => ho.unique hd ho', ?_, ?_, ?_⟩
  · intro id row hrow
    obtain ⟨-, u, hs⟩ := PhaseRun.rowOf_issued hd hrow
    exact horigin u row.issued hs
  · intro t r hr hgrants
    rw [hm.response] at hr
    obtain ⟨ph, ht, hview⟩ := finished_iff.mp hr
    obtain ⟨o, a, b, ho, htokens⟩ := (grants_iff hview).mp hgrants
    obtain ⟨row, -, -, hrow, -⟩ := tokens_row htokens
    exact ⟨_, PhaseRun.in_family hd ht ho hrow⟩
  · intro t r f hr hf
    rw [hm.response] at hr
    obtain ⟨ph, ht, hview⟩ := finished_iff.mp hr
    constructor
    · intro jwt hne hset
      obtain ⟨o, b, ho, htokens⟩ := (sets_access hview hne).mp hset
      obtain ⟨row, signed, -, hrow, hjwt, -⟩ := tokens_row htokens
      obtain ⟨u, hu⟩ := horigin t row (PhaseRun.outcome_row hd ht ho hrow).1.stored
      rw [hf.row hd ht ho hrow] at hu
      exact ⟨u, row.email, signed, hu, hjwt⟩
    · intro jwt hne hset
      obtain ⟨o, a, ho, htokens⟩ := (sets_refresh hview hne).mp hset
      obtain ⟨row, -, refreshed, hrow, -, hjwt⟩ := tokens_row htokens
      have hplaced := (PhaseRun.outcome_row hd ht ho hrow).1
      obtain ⟨u, hu⟩ := horigin t row hplaced.stored
      have hfamily := hf.row hd ht ho hrow
      rw [hfamily] at hu
      obtain ⟨row', hrow'⟩ : ∃ row', d.world.RowOf D row.id row' :=
        (hplaced.kept hd).resolve_right (not_expired (fun _ _ _ h => h.2) hd)
      obtain ⟨hid, v, hissued⟩ := PhaseRun.rowOf_issued hd hrow'
      obtain ⟨-, hsame⟩ := PhaseRun.stored_once hd hissued hplaced.stored hid
      exact ⟨u, row.email, row.id, refreshed, row', hu, hjwt, hrow',
        (congrArg RefreshToken.familyId hsame).trans hfamily⟩

/-- In a run that rotates token 1 to token 4, the row and the tokens of the rotation carry
the email of the login. -/
theorem session_identity_sample : ∃ ls c r, Run Sample.deps Sample.state
    (Both (Unforged Sample.deps Sample.state) NoExpiry) Sample.moment ls c ∧ c.response 1 = some r ∧
    (∃ u, Opened Sample.deps ls u (serial 2) "user@example.com") ∧
    (∃ f, InFamily Sample.deps ls 1 f) ∧
    ∀ f, InFamily Sample.deps ls 1 f → ∀ jwt, jwt ≠ "" →
      r.Sets Sample.state.cookieConfig.accessCookieName jwt →
      ∃ u email signed, Opened Sample.deps ls u f email ∧
        jwt = Sample.state.jwt.accessToken Sample.deps email signed := by
  obtain ⟨c, hc, hm⟩ := PhaseSegment.service (mirrors_initial _) (rotation_run Sample.deps
    Sample.state Sample.moment (permits_unforged.both permits_noExpiry) Sample.live)
  obtain ⟨-, hrows, hgrants, htokens⟩ := session_identity _ _ _ _ c hc
  have hresponse := (hm.response 1).trans (done_responds (Config.move_same _ _ _ _))
  have hrow : c.world.RowOf Sample.deps (serial 4) (secondHeld Sample.moment).row := by
    rw [hm.1]
    exact ⟨2, rotated_second _ _⟩
  exact ⟨_, c, _, hc, hresponse, hrows _ _ hrow, hgrants 1 _ hresponse (done_grants rfl),
    fun f hf => (htokens 1 _ f hresponse hf).1⟩

end Identity

end SvcAuth
