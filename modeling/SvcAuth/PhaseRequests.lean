import SvcAuth.StoreLog

/-! Which request makes a call. Rows are looked up for verified refresh tokens only, rows
are written back by rotations only, and a row is stored by a rotation or by a login. -/
namespace SvcAuth
open Interleave RevisionBucket RefreshTokenStore

/-- Request `t` is of this kind. -/
def Arrived (ls : List Event) (t : ℕ) (κ : Kind) : Prop := ∃ q, .arrive t q ∈ ls ∧ q.kind = κ

/-- Request `t` presented a refresh token that verified, for this email and token id. -/
def Verified (D : Deps) (S : AppState) (ls : List Event) (t : ℕ) (email : String) (id : Uuid) :
    Prop :=
  ∃ q jwt now claims, .arrive t q ∈ ls ∧ q.refreshJwt S = some jwt ∧ .call t .utcNow now ∈ ls ∧
    S.jwt.refreshVerdict D jwt now = .ok claims ∧ claims.sub = email ∧
    D.parseStr claims.jti = some id

variable {D : Deps} {S : AppState} {G : Assumption} {clock : ℕ} {ls ms : List Event}
  {c d : PhaseState} {l : Event} {t u : ℕ}

theorem Arrived.mono (hsub : ls ⊆ ms) {κ : Kind} (h : Arrived ls t κ) : Arrived ms t κ := by
  obtain ⟨q, hq, hk⟩ := h
  exact ⟨q, hsub hq, hk⟩

theorem Verified.mono (hsub : ls ⊆ ms) {email : String} {id : Uuid}
    (h : Verified D S ls t email id) : Verified D S ms t email id := by
  obtain ⟨q, jwt, now, claims, hq, hjwt, hnow, hv⟩ := h
  exact ⟨q, jwt, now, claims, hsub hq, hjwt, hsub hnow, hv⟩

theorem Arrived.unique (h : PhaseSegment D S G c ls d) {κ κ' : Kind} (h₁ : Arrived ls t κ)
    (h₂ : Arrived ls t κ') : κ = κ' := by
  obtain ⟨q, hq, rfl⟩ := h₁
  obtain ⟨q', hq', rfl⟩ := h₂
  rw [(Trace.arrived h).2 t q q' hq hq']

theorem PhaseRun.arrived (h : PhaseRun D S G clock ls c) {ph : Phase} {κ : Kind}
    (ht : c.threads t = some ph) (hκ : ph.kind = some κ) : Arrived ls t κ := by
  refine h.known (P := fun ls t ph => ∀ κ, ph.kind = some κ → Arrived ls t κ)
    ?_ ?_ ?_ t ph ht κ hκ
  · exact fun ls l t ph ih κ hκ => (ih κ hκ).mono (log_grows ls l)
  · intro ls t q ph hs κ hκ
    rcases hs.kind with hk | hk
    · rw [hk] at hκ
      cases hκ
      exact ⟨q, List.mem_concat_self, rfl⟩
    · rw [hk] at hκ
      cases hκ
  · intro ls c t ph o r ph' w prior ht ih hm hw κ hκ
    rcases hm.kind with hk | hk
    · exact (ih κ (hk ▸ hκ)).mono (log_grows _ _)
    · rw [hk] at hκ
      cases hκ

theorem Marked.arrived (h : PhaseRun D S G clock ls c) {row : RefreshToken}
    (hm : Marked D ls t row) : Arrived ls t .rotation := by
  obtain ⟨rev, r, hl⟩ := hm
  obtain ⟨before, after, e, e', rfl, hbefore, hstep, -⟩ := Trace.at_label h hl
  obtain ⟨ph, ph', ht, hmove, -⟩ := step_call hstep.1
  obtain ⟨x, y, now, rfl, -⟩ := hmove.updateIf
  exact (PhaseRun.arrived hbefore ht rfl).mono (List.subset_append_left _ _)

/-- What is known while a token is being verified and just after. -/
def Checked (D : Deps) (S : AppState) (ls : List Event) (t : ℕ) : Phase → Prop
  | .verify _ jwt | .logoutVerify jwt | .accessVerify _ _ (some jwt) =>
    ∃ q, .arrive t q ∈ ls ∧ q.refreshJwt S = some jwt
  | .find _ email jti => Verified D S ls t email jti
  | .logoutFind jti => ∃ email, Verified D S ls t email jti
  | _ => True

theorem Checked.mono (hsub : ls ⊆ ms) {ph : Phase} (h : Checked D S ls t ph) :
    Checked D S ms t ph := by
  have hq : ∀ jwt, (∃ q, .arrive t q ∈ ls ∧ q.refreshJwt S = some jwt) →
      ∃ q, .arrive t q ∈ ms ∧ q.refreshJwt S = some jwt := by
    rintro jwt ⟨q, hq, hjwt⟩
    exact ⟨q, hsub hq, hjwt⟩
  unfold Checked at h ⊢
  split
  · exact hq _ h
  · exact hq _ h
  · exact hq _ h
  · exact h.mono hsub
  · exact h.imp fun _ hv => hv.mono hsub
  · trivial

theorem PhaseRun.checked (h : PhaseRun D S G clock ls c) :
    ∀ t ph, c.threads t = some ph → Checked D S ls t ph := by
  refine h.known (P := Checked D S) ?_ ?_ ?_
  · exact fun ls l t ph ih => ih.mono (log_grows ls l)
  · intro ls t q ph hs
    cases hs with
    | refresh presented => exact ⟨_, List.mem_concat_self, presented⟩
    | logout presented => exact ⟨_, List.mem_concat_self, presented⟩
    | @access headers s token =>
      cases hjwt : extractRefreshCookie headers S.cookieConfig with
      | none => trivial
      | some jwt => exact ⟨_, List.mem_concat_self, hjwt⟩
    | _ => trivial
  · intro ls c t ph o r ph' w prior ht ih hm hw
    cases hm with
    | verified verdict parsed =>
      obtain ⟨q, hq, hjwt⟩ := ih
      exact ⟨q, _, _, _, List.mem_append_left _ hq, hjwt, List.mem_concat_self, verdict, rfl, parsed⟩
    | logoutVerified verdict parsed =>
      obtain ⟨q, hq, hjwt⟩ := ih
      exact ⟨_, q, _, _, _, List.mem_append_left _ hq, hjwt, List.mem_concat_self, verdict, rfl,
        parsed⟩
    | silent verdict on =>
      obtain ⟨q, hq, hjwt⟩ := ih
      exact ⟨q, log_grows _ _ hq, hjwt⟩
    | _ => trivial

theorem PhaseRun.lookup_verified (h : PhaseRun D S G clock ls c) {id : Uuid}
    {r : Except FabricError (Option (Entry × Revision))}
    (hl : .call t (.get (rowKey D id)) r ∈ ls) : ∃ email, Verified D S ls t email id := by
  obtain ⟨before, after, e, e', rfl, hbefore, hstep, -⟩ := Trace.at_label h hl
  obtain ⟨ph, ph', here, hm, -⟩ := step_call hstep.1
  have hchecked := PhaseRun.checked hbefore t ph here
  rcases hm.get with ⟨x, email, jti, rfl, hk⟩ | ⟨x, email, held, rfl, hk⟩ | ⟨jti, rfl, hk⟩
  · rw [rowKey_inj] at hk
    subst hk
    exact ⟨email, Verified.mono (List.subset_append_left _ _) hchecked⟩
  · exact absurd hk (rowKey_ne_markerKey D _ _)
  · rw [rowKey_inj] at hk
    subst hk
    obtain ⟨email, hv⟩ := hchecked
    exact ⟨email, hv.mono (List.subset_append_left _ _)⟩

theorem PhaseRun.claimed (h : PhaseRun D S G clock ls c) {ph : Phase} {email : String} {id : Uuid}
    (ht : c.threads t = some ph) (hc : ph.claimed = some (email, id)) :
    Verified D S ls t email id := by
  refine h.known (P := fun ls t ph => ∀ email id, ph.claimed = some (email, id) →
    Verified D S ls t email id) ?_ ?_ ?_ t ph ht email id hc
  · exact fun ls l t ph ih email id hc => (ih email id hc).mono (log_grows ls l)
  · intro ls t q ph hs email id hc
    rw [hs.claimed] at hc
    cases hc
  · intro ls c t ph o r ph' w prior ht ih hm hw email id hc
    rcases hm.claimed hc with hold | ⟨x, jti, row, rev, rfl, heq, rfl⟩ |
      ⟨x, jwt, now, claims, rfl, heq, hverdict, hsub, hjti⟩
    · exact (ih email id hold).mono (log_grows _ _)
    · cases heq
      obtain ⟨-, hread | hread⟩ := hw.of_get
      · obtain ⟨cell, hcell, hv, -⟩ := World.read_eq_some (Except.ok.inj hread).symm
        obtain ⟨row', hv', hid⟩ := prior.row_cell hcell
        rw [hv] at hv'
        cases hv'
        rw [hid]
        exact (ih email jti rfl).mono (log_grows _ _)
      · cases hread
    · cases heq
      obtain ⟨q, hq, hjwt⟩ := prior.checked t _ ht
      exact ⟨q, jwt, now, claims, log_grows _ _ hq, hjwt, List.mem_concat_self, hverdict, hsub, hjti⟩

theorem PhaseRun.concluded (h : PhaseRun D S G clock ls c) {ph : Phase} {o : Outcome}
    (ht : c.threads t = some ph) (ho : ph.outcome = some o) :
    ∃ op r, Decides D S o ⟨op, r⟩ ∧ .call t op r ∈ ls := by
  refine h.known (P := fun ls t ph => ∀ o, ph.outcome = some o →
    ∃ op r, Decides D S o ⟨op, r⟩ ∧ .call t op r ∈ ls) ?_ ?_ ?_ t ph ht o ho
  · intro ls l t ph ih o ho
    obtain ⟨op, r, hd, hl⟩ := ih o ho
    exact ⟨op, r, hd, log_grows ls l hl⟩
  · intro ls t q ph hs o ho
    rw [hs.outcome] at ho
    cases ho
  · intro ls c t ph op r ph' w prior ht ih hm hw o ho
    rcases hm.outcome ho with hold | hd
    · obtain ⟨op', r', hd, hl⟩ := ih o hold
      exact ⟨op', r', hd, log_grows _ _ hl⟩
    · exact ⟨op, r, hd, List.mem_concat_self⟩

/-- Request `t` takes a refresh token down a rotation path: to `/auth/refresh`, or to
`/auth/check` under an access token that has expired, with silent refresh on. Whenever it
reads the clock the refresh token verifies, with this token id. -/
structure Rotates (D : Deps) (S : AppState) (ls : List Event) (t : ℕ) (q : Request) (jwt : String)
    (id : Uuid) : Prop where
  presented : q.refreshJwt S = some jwt
  route : (∃ headers body, q = .refresh headers body) ∨
    ∃ headers token, q = .check headers ∧ S.authCheckSilentRefresh = true ∧
      extractAccessCookie headers S.cookieConfig = some token ∧
      ∀ now, .call t .utcNow now ∈ ls → S.jwt.accessVerdict D token now = .error .Expired
  valid : ∀ now, .call t .utcNow now ∈ ls → ∃ claims,
    S.jwt.refreshVerdict D jwt now = .ok claims ∧ D.parseStr claims.jti = some id

namespace Rotates
variable {q : Request} {jwt : String} {id : Uuid}

theorem kind (h : Rotates D S ls t q jwt id) : q.kind = .rotation := by
  rcases h.route with ⟨headers, body, rfl⟩ | ⟨headers, token, rfl, -⟩ <;> rfl

theorem anti (hsub : ls ⊆ ms) (h : Rotates D S ms t q jwt id) : Rotates D S ls t q jwt id := by
  refine ⟨h.presented, h.route.imp_right ?_, fun now hl => h.valid now (hsub hl)⟩
  rintro ⟨headers, token, hq, hon, htoken, hexpired⟩
  exact ⟨headers, token, hq, hon, htoken, fun now hl => hexpired now (hsub hl)⟩

end Rotates

/-- Where such a request is until it has looked its row up. -/
def Approaching (D : Deps) (S : AppState) (ls : List Event) (t : ℕ) (q : Request) (jwt : String)
    (id : Uuid) : Phase → Prop
  | .accessVerify _ token refresh => refresh = some jwt ∧
    ∃ headers, q = .check headers ∧ extractAccessCookie headers S.cookieConfig = some token
  | .verify _ presented => presented = jwt
  | .find _ _ jti => jti = id
  | _ => ∃ r, .call t (.get (rowKey D id)) r ∈ ls

theorem Approaching.mono (hsub : ls ⊆ ms) {q : Request} {jwt : String} {id : Uuid} {ph : Phase}
    (h : Approaching D S ls t q jwt id ph) : Approaching D S ms t q jwt id ph := by
  cases ph with
  | accessVerify s token refresh => exact h
  | verify x presented => exact h
  | find x email jti => exact h
  | _ => exact h.imp fun _ hl => hsub hl

theorem Starts.approaching {q : Request} {ph : Phase} (h : Starts S q ph) {jwt : String} {id : Uuid}
    (hr : Rotates D S ls t q jwt id) : Approaching D S ls t q jwt id ph := by
  have hpresented := hr.presented
  rcases hr.route with ⟨headers, body, rfl⟩ | ⟨headers, token, rfl, -, htoken, -⟩
  · cases h with
    | noSession absent =>
      have hnone : Request.refreshJwt S (.refresh headers body) = none := absent
      rw [hnone] at hpresented
      cases hpresented
    | refresh presented =>
      exact Option.some.inj (presented.symm.trans hpresented)
  · cases h with
    | access presented => exact ⟨hpresented, headers, rfl, presented⟩
    | bearer absent =>
      rw [absent] at htoken
      cases htoken
    | anonymous absent =>
      rw [absent] at htoken
      cases htoken

theorem Moves.approaching {ph ph' : Phase} {o : Op} {r : o.Reply} (hm : Moves D S ph ⟨o, r⟩ ph')
    {q : Request} {jwt : String} {id : Uuid} (hr : Rotates D S (ls ++ [.call t o r]) t q jwt id)
    (h : Approaching D S ls t q jwt id ph) :
    Approaching D S (ls ++ [.call t o r]) t q jwt id ph' := by
  cases hm with
  | expired verdict =>
    obtain ⟨claims, hok, -⟩ := hr.valid _ List.mem_concat_self
    rw [← show _ = jwt from h, verdict] at hok
    cases hok
  | invalid verdict =>
    obtain ⟨claims, hok, hjti⟩ := hr.valid _ List.mem_concat_self
    rw [← show _ = jwt from h] at hok
    exact absurd hjti (verdict claims id hok)
  | verified verdict parsed =>
    obtain ⟨claims, hok, hjti⟩ := hr.valid _ List.mem_concat_self
    rw [← show _ = jwt from h, verdict] at hok
    cases hok
    rw [parsed] at hjti
    exact Option.some.inj hjti
  | unread => exact ⟨_, by rw [← show _ = id from h]; exact List.mem_concat_self⟩
  | misread => exact ⟨_, by rw [← show _ = id from h]; exact List.mem_concat_self⟩
  | missing => exact ⟨_, by rw [← show _ = id from h]; exact List.mem_concat_self⟩
  | found => exact ⟨_, by rw [← show _ = id from h]; exact List.mem_concat_self⟩
  | checked other =>
    obtain ⟨rfl, headers, rfl, htoken⟩ := h
    rcases hr.route with ⟨_, _, heq⟩ | ⟨headers', token', heq, hon, htoken', hexpired⟩
    · cases heq
    · cases heq
      rw [htoken] at htoken'
      cases htoken'
      exact absurd ⟨hexpired _ List.mem_concat_self, hon, rfl⟩ other
  | silent verdict on => exact Option.some.inj h.1
  | _ => exact h.imp fun _ hl => log_grows _ _ hl

/-- A rotation whose refresh token verifies looks up its row before it ends. -/
theorem Rotates.looks_up (h : PhaseRun D S G clock ls c) {q : Request} {jwt : String} {id : Uuid}
    (hr : Rotates D S ls t q jwt id) (hq : .arrive t q ∈ ls) {ph : Phase}
    (ht : c.threads t = some ph) {r : Response} (hview : view D S ph = .inl r) :
    ∃ r, .call t (.get (rowKey D id)) r ∈ ls := by
  obtain ⟨q', hq', happroach⟩ := h.known (P := fun ls t ph => ∃ q, .arrive t q ∈ ls ∧
    ∀ jwt id, Rotates D S ls t q jwt id → Approaching D S ls t q jwt id ph) (by
      rintro ls l t ph ⟨q, hq, ih⟩
      exact ⟨q, log_grows _ _ hq, fun jwt id hr =>
        (ih jwt id (hr.anti (log_grows _ _))).mono (log_grows _ _)⟩) (by
      intro ls t q ph hs
      exact ⟨q, List.mem_concat_self, fun jwt id hr => hs.approaching hr⟩) (by
      rintro ls c t ph o r ph' w prior ht ⟨q, hq, ih⟩ hm hw
      exact ⟨q, log_grows _ _ hq, fun jwt id hr =>
        hm.approaching hr (ih jwt id (hr.anti (log_grows _ _)))⟩) t ph ht
  cases (Trace.arrived h).2 t q q' hq hq'
  have hlooked := happroach jwt id hr
  cases ph with
  | accessVerify session token refresh => cases hview
  | verify x jwt' => cases hview
  | find x email jti => cases hview
  | _ => exact hlooked

end SvcAuth
