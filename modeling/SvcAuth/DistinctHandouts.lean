import SvcAuth.FirstFamily
import SvcAuth.HandedOut
import SvcAuth.PhaseFollows
import SvcAuth.SampleDeployment

/-! What the service hands out once it never hands out again: two requests are never sent the
same refresh token, nor the same session id. -/
namespace SvcAuth
open Interleave JsonWebToken RevisionBucket RefreshTokenStore

section Tokens
variable {D : Deps} {secret : String} {ms ms' : List (String × Json)}

theorem hmacToken_inj (hms : ∀ m ∈ ms, m.2.Scalar) (hms' : ∀ m ∈ ms', m.2.Scalar)
    (h : D.hmacToken ms secret = D.hmacToken ms' secret) : ms = ms' := by
  have hcut := congrArg rsplitDot h
  simp only [Codecs.hmacToken, Codecs.signedToken, rsplitDot_compact (D.cryptoSign_dotless _ _ _),
    Option.some.injEq, Prod.mk.injEq] at hcut
  have hbody := congrArg rsplitDot hcut.2
  simp only [rsplitDot_append (D.b64Encode_dotless _), Option.some.injEq, Prod.mk.injEq] at hbody
  have hbytes := congrArg D.b64Decode hbody.1
  simp only [D.b64Decode_encode, Option.some.injEq] at hbytes
  have hread := congrArg D.fromJson hbytes
  rw [D.fromJson_toJson _ hms, D.fromJson_toJson _ hms'] at hread
  exact Option.some.inj hread

theorem refreshToken_id {svc : JwtService} {email email' : String} {id id' : Uuid}
    {signed signed' : ℕ} (h : svc.refreshToken D email id signed =
      svc.refreshToken D email' id' signed') : id = id' := by
  have hmembers := hmacToken_inj (RefreshClaims.scalar _) (RefreshClaims.scalar _) h
  have hclaims := congrArg RefreshClaims.fromMembers hmembers
  simp only [RefreshClaims.fromMembers_toMembers, Option.some.injEq] at hclaims
  exact D.uuidToString_injective (congrArg RefreshClaims.jti hclaims)

end Tokens

variable {D : Deps} {S : AppState} {G : Assumption} {clock : ℕ} {ls ms : List Event}
  {c d : PhaseState} {l : Event} {t u : ℕ} {v : Uuid}

section Minted

theorem minted_mono (h : PhaseSegment D S G c ms d) (hv : v ∈ c.world.minted) :
    v ∈ d.world.minted := by
  refine h.invariant (I := fun _ d => v ∈ d.world.minted) hv ?_
  exact fun _ _ _ _ _ ih hs => step_minted hs.1 ih

theorem minted_once (h : PhaseSegment D S G c ls d) (hl : .call t .nowV7 v ∈ ls)
    (hl' : .call u .nowV7 v ∈ ls) : t = u := by
  have hfirst : ∀ {before e e' t u}, PhaseSegment D S G c before e →
      GuardedStep service (machine D S) (start D S) G e (.call t .nowV7 v) e' →
      .call u .nowV7 v ∉ before := by
    intro before e e' t u hbefore hstep hold
    obtain ⟨b, a, e₁, e₁', rfl, -, hearlier, hrest⟩ := Trace.at_label hbefore hold
    obtain ⟨-, -, -, -, answer, -⟩ := step_call hearlier.1
    obtain ⟨-, -, -, -, answer', -⟩ := step_call hstep.1
    have hthere : v ∈ e₁'.world.minted := by
      rw [answer.nowV7_fresh.2]
      exact .head _
    exact answer'.nowV7_fresh.1 (minted_mono hrest hthere)
  rcases Trace.first_of_two h hl hl' with heq | ⟨before, _, e, e', -, hbefore, hstep, hold⟩ |
    ⟨before, _, e, e', -, hbefore, hstep, hold⟩
  · injection heq
  · exact absurd hold (hfirst hbefore hstep)
  · exact absurd hold (hfirst hbefore hstep)

end Minted

section Sessions

/-- The UUID a request has drawn for the session cookie. -/
def Phase.sessionId : Phase → Option Uuid
  | .done _ _ sid | .replied _ sid => some sid
  | _ => none

theorem Moves.sessionId {ph ph' : Phase} {e : Calls.Event} (h : Moves D S ph e ph')
    (hv : ph'.sessionId = some v) : ph.sessionId = some v ∨ e = ⟨.nowV7, v⟩ := by
  cases h with
  | session =>
    cases hv
    exact .inr rfl
  | replySession =>
    cases hv
    exact .inr rfl
  | _ => cases hv

theorem PhaseRun.sessionId_drawn (h : PhaseRun D S G clock ls c) {ph : Phase}
    (ht : c.threads t = some ph) (hv : ph.sessionId = some v) : .call t .nowV7 v ∈ ls := by
  refine h.known (P := fun ls t ph => ∀ v, ph.sessionId = some v → .call t .nowV7 v ∈ ls)
    ?_ ?_ ?_ t ph ht v hv
  · exact fun ls l t ph ih v hv => log_grows ls l (ih v hv)
  · intro ls t q ph hs v hv
    cases hs <;> cases hv
  · intro ls c t ph o r ph' w prior ht ih hm hw v hv
    rcases hm.sessionId hv with hold | heq
    · exact log_grows _ _ (ih v hold)
    · cases heq
      exact List.mem_concat_self

/-- The response sets no session cookie. -/
def Response.Sessionless (D : Deps) (S : AppState) (r : Response) : Prop :=
  ∀ cookie ∈ r.setCookie, cookie.name ≠ S.cookieConfig.sessionCookieName D

theorem sessionless_withCookies (r : Response) {a b : SetCookie}
    (ha : a.name = S.cookieConfig.accessCookieName) (hb : b.name = S.cookieConfig.refreshCookieName) :
    (r.withCookies a b).Sessionless D S := by
  have hnames := S.cookieConfig.names_distinct D
  intro cookie hc
  rw [Response.withCookies_setCookie, List.mem_pair] at hc
  rcases hc with rfl | rfl
  · rw [ha]
    exact hnames.2.1.symm
  · rw [hb]
    exact hnames.2.2.symm

theorem sessionless_respond (x : Ctx) (o : Outcome) : (respond D S x o).Sessionless D S := by
  have hrefused : (o.refusal.intoResponse).Sessionless D S := by
    intro cookie hc
    cases o <;> cases hc
  unfold respond
  split
  · exact sessionless_withCookies _ rfl rfl
  · exact sessionless_withCookies _ rfl rfl
  · exact sessionless_withCookies _ rfl rfl
  · simp only
    split
    · exact sessionless_withCookies _ rfl rfl
    · exact hrefused

theorem sessionless_render (n : Notice) : (n.render D S).Sessionless D S := by
  have hnames := S.cookieConfig.names_distinct D
  intro cookie hc
  cases n with
  | clearAccess =>
    rw [List.mem_singleton.mp hc]
    exact hnames.2.1.symm
  | clearBoth => exact sessionless_withCookies _ rfl rfl cookie hc
  | refused e => cases e <;> cases hc
  | _ => cases hc

theorem sets_session {ph : Phase} {r : Response} (h : view D S ph = .inl r) {value : String}
    (hset : r.Sets (S.cookieConfig.sessionCookieName D) value) :
    ∃ v, ph.sessionId = some v ∧ value = D.uuidToString v := by
  obtain ⟨cookie, hc, hname, rfl⟩ := hset
  have hadded : ∀ {plain : Response} {sid : Uuid}, plain.Sessionless D S →
      r = withSession D S plain sid → cookie.value = D.uuidToString sid := by
    rintro plain sid hplain rfl
    rw [withSession, Response.appendCookie_setCookie, List.mem_append, List.mem_singleton] at hc
    rcases hc with hc | rfl
    · exact absurd hname (hplain cookie hc)
    · rfl
  cases ph with
  | settle x o =>
    rw [settle_response h] at hc
    exact absurd hname (sessionless_respond x o cookie hc)
  | done x o sid =>
    cases h
    exact ⟨sid, rfl, hadded (sessionless_respond x o) rfl⟩
  | reply session n =>
    rw [reply_response h] at hc
    exact absurd hname (sessionless_render n cookie hc)
  | replied n sid =>
    cases h
    exact ⟨sid, rfl, hadded (sessionless_render n) rfl⟩
  | closed n =>
    cases h
    exact absurd hname (sessionless_render n cookie hc)
  | logoutDone seen =>
    cases h
    exact absurd hname (sessionless_withCookies _ rfl rfl cookie hc)
  | _ => cases h

end Sessions

/-- Nothing is handed out twice, as long as no UUID is drawn twice. No two requests are sent the
same refresh token, however the requests interleave and whatever fails or expires, and no two
are sent the same session id. -/
theorem handouts_distinct (D : Deps) (S : AppState) (clock : ℕ) (ls : List Event)
    (c : ServiceState) (h : Run D S Unrestricted clock ls c) (t u : ℕ) (r s : Response)
    (hr : c.response t = some r) (hs : c.response u = some s) (hne : t ≠ u) :
    (∀ jwt, jwt ≠ "" → r.Sets S.cookieConfig.refreshCookieName jwt →
      ¬ s.Sets S.cookieConfig.refreshCookieName jwt) ∧
    ∀ sid, r.Sets (S.cookieConfig.sessionCookieName D) sid →
      ¬ s.Sets (S.cookieConfig.sessionCookieName D) sid := by
  obtain ⟨d, hd, hm⟩ := Segment.phases (mirrors_initial _) h
  rw [hm.response] at hr hs
  obtain ⟨ph, ht, hview⟩ := finished_iff.mp hr
  obtain ⟨ph', hu, hview'⟩ := finished_iff.mp hs
  constructor
  · intro jwt hjwt hset hset'
    have hstored : ∀ {t ph r}, d.threads t = some ph → view D S ph = .inl r →
        r.Sets S.cookieConfig.refreshCookieName jwt → ∃ row signed, Stored D ls t row ∧
          jwt = S.jwt.refreshToken D row.email row.id signed := by
      intro t ph r ht hview hset
      obtain ⟨o, a, ho, htokens⟩ := (sets_refresh hview hjwt).mp hset
      obtain ⟨row, -, signed, hrow, -, htoken⟩ := tokens_row htokens
      exact ⟨row, signed, (PhaseRun.outcome_row hd ht ho hrow).1.stored, htoken⟩
    obtain ⟨row, signed, hplaced, htoken⟩ := hstored ht hview hset
    obtain ⟨row', signed', hplaced', htoken'⟩ := hstored hu hview' hset'
    have hid := refreshToken_id (htoken.symm.trans htoken')
    exact hne (PhaseRun.stored_once hd hplaced hplaced' hid).1
  · intro sid hset hset'
    obtain ⟨v, hv, rfl⟩ := sets_session hview hset
    obtain ⟨v', hv', hsame⟩ := sets_session hview' hset'
    cases D.uuidToString_injective hsame
    exact hne (minted_once hd (PhaseRun.sessionId_drawn hd ht hv)
      (PhaseRun.sessionId_drawn hd hu hv'))

/-- After the rotation the client that logged in and the one that rotated hold two tokens. -/
theorem handouts_distinct_sample : ∃ ls c r s,
    Run Sample.deps Sample.state Unrestricted Sample.moment ls c ∧
    c.response 0 = some r ∧ c.response 1 = some s ∧
    r.Sets Sample.state.cookieConfig.refreshCookieName
      (numberedJwt Sample.deps Sample.state Sample.moment 1) ∧
    ¬ s.Sets Sample.state.cookieConfig.refreshCookieName
      (numberedJwt Sample.deps Sample.state Sample.moment 1) := by
  obtain ⟨c, hc, hm⟩ := PhaseSegment.service (mirrors_initial _)
    (rotation_run Sample.deps Sample.state Sample.moment permits_unrestricted Sample.live)
  have hlogin : (rotated Sample.deps Sample.moment).threads 0 =
      some (.done ⟨.token, none⟩ (.opened (firstLogin Sample.moment)) (serial 3)) := rfl
  have hrotation : (rotated Sample.deps Sample.moment).threads 1 =
      some (.done ⟨.refresh, none⟩ (.granted (firstDraft Sample.moment)) (serial 5)) := rfl
  have hfirst := (hm.response 0).trans (done_responds hlogin)
  have hsecond := (hm.response 1).trans (done_responds hrotation)
  have hne := Sample.state.jwt.refreshToken_ne_empty Sample.deps "user@example.com" (serial 1)
    Sample.moment
  have hset := (sets_refresh (view_done (D := Sample.deps) (S := Sample.state) ⟨.token, none⟩
    (.opened (firstLogin Sample.moment)) (serial 3)) hne).mpr ⟨_, _, rfl, rfl⟩
  exact ⟨_, c, _, _, hc, hfirst, hsecond, hset,
    (handouts_distinct _ _ _ _ _ hc 0 1 _ _ hfirst hsecond (by decide)).1 _ hne hset⟩

end SvcAuth
