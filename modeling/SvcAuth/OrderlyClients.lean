import SvcAuth.ReuseDetection
import SvcAuth.RevocationExpiry
import SvcAuth.TokenLifetimes

/-! Orderly clients. A client that presents each refresh token once, waits for the answer,
and comes back before the refresh TTL is over is renewed every time, whatever other clients
do at the same time. -/
namespace SvcAuth
open Interleave RevisionBucket RefreshTokenStore JsonWebToken

variable {D : Deps} {S : AppState} {G : Assumption} {clock : ℕ} {ls ms : List Event}
  {c d : PhaseState} {l : Event} {t u : ℕ} {f id : Uuid} {since maxAge : ℕ}

section Ages

theorem PhaseSegment.clock_le (h : PhaseSegment D S G c ls d) : c.world.clock ≤ d.world.clock := by
  refine h.invariant (I := fun _ d => c.world.clock ≤ d.world.clock) le_rfl ?_
  intro ls d l e prior ih hs
  exact ih.trans (step_clock hs.1)

/-- The row of token `id` is in the store, and was written no earlier than `since`. -/
def Kept (D : Deps) (w : World) (since : ℕ) (id : Uuid) : Prop :=
  ∃ cell, w.bucket.cells (rowKey D id) = some cell ∧ since ≤ cell.written

/-- No row expires before its age limit, and writing to it makes it younger. -/
theorem step_kept (hG : ∀ w r l, G w r l → MaxAge maxAge w r l) (prior : PhaseRun D S G clock ls c)
    (hs : GuardedStep service (machine D S) (start D S) G c l d)
    (htime : d.world.clock < since + maxAge) (h : Kept D c.world since id) :
    Kept D d.world since id ∧ ∀ e, l = .env e → e.expired (rowKey D id) = false := by
  obtain ⟨cell, hcell, hsince⟩ := h
  rcases phase_step hs.1 with ⟨t, q, rfl, -, hw, -⟩ | ⟨t, ph, o, r, ph', rfl, -, -, answer, -⟩ |
    ⟨e, rfl, hpass, -⟩
  · exact ⟨⟨cell, by rw [hw, hcell], hsince⟩, by simp⟩
  · refine ⟨?_, by simp⟩
    rcases answer.bucket with hsame | ⟨k, v, -, hput, -⟩
    · exact ⟨cell, by rw [hsame, hcell], hsince⟩
    · by_cases hk : k = rowKey D id
      · subst hk
        have hdated := prior.dated _ cell hcell
        refine ⟨_, by rw [hput, Bucket.put_same], ?_⟩
        exact hsince.trans hdated
      · exact ⟨cell, by rw [hput, Bucket.put_other _ _ _ (Ne.symm hk), hcell], hsince⟩
  · have hclock : d.world.clock = c.world.clock + e.seconds := by rw [hpass]
    have hyoung : e.expired (rowKey D id) = false := by
      rw [← Bool.not_eq_true, hG _ _ _ hs.2 _ cell hcell]
      omega
    refine ⟨⟨cell, ?_, hsince⟩, ?_⟩
    · rw [hpass]
      simp only [Bucket.drop_kept _ hyoung, hcell]
    · intro e' heq
      cases heq
      exact hyoung

theorem PhaseRun.kept_stays (hG : ∀ w r l, G w r l → MaxAge maxAge w r l)
    (h : PhaseRun D S G clock ls c) (hseg : PhaseSegment D S G c ms d)
    (htime : d.world.clock < since + maxAge) (hkept : Kept D c.world since id) :
    Kept D d.world since id ∧ ¬ Expired ms (rowKey D id) := by
  refine hseg.invariant (I := fun ms d => d.world.clock < since + maxAge →
    Kept D d.world since id ∧ ¬ Expired ms (rowKey D id)) ?_ ?_ htime
  · rintro -
    exact ⟨hkept, by simp [Expired]⟩
  · intro ms d l e prior ih hs htime
    obtain ⟨hd, hnone⟩ := ih ((step_clock hs.1).trans_lt htime)
    obtain ⟨he, hlast⟩ := step_kept hG (h.trans prior) hs htime hd
    refine ⟨he, ?_⟩
    rintro ⟨p, hp, hgone⟩
    rcases List.mem_append.mp hp with hold | hnew
    · exact hnone ⟨p, hold, hgone⟩
    · rw [hlast p (List.mem_singleton.mp hnew).symm] at hgone
      cases hgone

theorem PhaseRun.placed_kept (hG : ∀ w r l, G w r l → MaxAge maxAge w r l)
    (h : PhaseRun D S G clock ls c) (hseg : PhaseSegment D S G c ms d) {row : RefreshToken}
    (hp : Placed D ms t row) (htime : d.world.clock < c.world.clock + maxAge) :
    Kept D d.world c.world.clock row.id := by
  obtain ⟨before, after, e, e', rfl, hbefore, hstep, hafter⟩ := Trace.at_label hseg hp
  obtain ⟨-, -, -, -, answer, -⟩ := step_call hstep.1
  have hstart : Kept D e'.world c.world.clock row.id := by
    rw [answer.put_ok]
    exact ⟨_, Bucket.put_same _ _ _ _, PhaseSegment.clock_le hbefore⟩
  exact (PhaseRun.kept_stays hG (Trace.snoc (h.trans hbefore) hstep) hafter htime hstart).1

end Ages

section Readings

theorem PhaseSegment.read_between (h : PhaseSegment D S G c ls d) {now : ℕ}
    (hl : .call t .utcNow now ∈ ls) : c.world.clock ≤ now ∧ now ≤ d.world.clock := by
  obtain ⟨before, after, e, e', rfl, hbefore, hstep, hafter⟩ := Trace.at_label h hl
  obtain ⟨-, -, -, -, answer, -⟩ := step_call hstep.1
  have hnow : now = e.world.clock ∧ e'.world = e.world := by
    generalize e'.world = w at answer
    cases answer
    exact ⟨rfl, rfl⟩
  have hafter' := PhaseSegment.clock_le hafter
  rw [hnow.2] at hafter'
  rw [hnow.1]
  exact ⟨PhaseSegment.clock_le hbefore, hafter'⟩

/-- When the refresh token of an attempt is signed. -/
def Outcome.refreshed : Outcome → Option ℕ
  | .granted d => some d.refreshed
  | .opened p => some p.refreshed
  | _ => none

def Phase.refreshed : Phase → Option ℕ
  | .created _ _ _ _ _ now => some now
  | .store _ d | .stamp _ d | .mark _ d _ => some d.refreshed
  | .loginFamily _ _ _ _ now | .loginCreated _ _ _ _ now _ => some now
  | .loginStore _ p => some p.refreshed
  | .settle _ o | .done _ o _ => o.refreshed
  | _ => none

theorem Moves.refreshed {ph ph' : Phase} {e : Calls.Event} (h : Moves D S ph e ph') {now : ℕ}
    (hnow : ph'.refreshed = some now) : ph.refreshed = some now ∨ e = ⟨.utcNow, now⟩ := by
  cases h with
  | refresh =>
    cases hnow
    exact .inr rfl
  | loginRefresh =>
    cases hnow
    exact .inr rfl
  | _ => first | exact .inl hnow | cases hnow

theorem PhaseRun.refreshed_read (h : PhaseRun D S G clock ls c) {ph : Phase}
    (ht : c.threads t = some ph) {now : ℕ} (hnow : ph.refreshed = some now) :
    .call t .utcNow now ∈ ls := by
  refine h.known (P := fun ls t ph => ∀ now, ph.refreshed = some now → .call t .utcNow now ∈ ls)
    ?_ ?_ ?_ t ph ht now hnow
  · exact fun ls l t ph ih now hnow => log_grows ls l (ih now hnow)
  · intro ls t q ph hs now hnow
    cases hs <;> cases hnow
  · intro ls c t ph o r ph' w prior ht ih hm hw now hnow
    rcases hm.refreshed hnow with hold | heq
    · exact log_grows _ _ (ih now hold)
    · cases heq
      exact List.mem_concat_self

end Readings

section Calls

theorem PhaseRun.marker_written (h : PhaseRun D S G clock ls c) {v : Entry} {rev : Revision}
    (hl : .call t (.get (markerKey D f)) (.ok (some (v, rev))) ∈ ls) :
    ∃ u v r, .call u (.put (markerKey D f) v) r ∈ ls := by
  have hthrough : Throughout (fun ls k _ => k = markerKey D f → ∃ u v r, .call u (.put k v) r ∈ ls)
      ls c := by
    refine h.throughout ?_ ?_
    · intro ls l k v ih hk
      obtain ⟨u, v', r, hput⟩ := ih hk
      exact ⟨u, v', r, log_grows ls l hput⟩
    · intro ls c t ph o r ph' k v prior ih ht hm hw hk
      cases o with
      | put k' v' =>
        cases hw
        exact ⟨t, v, r, List.mem_concat_self⟩
      | updateIf k' v' rev =>
        cases hw
        obtain ⟨_, _, _, -, -, hrow, -⟩ := hm.updateIf
        exact absurd (hk.symm.trans hrow) (markerKey_ne_rowKey D _ _)
      | _ => cases hw
  exact hthrough.reads t _ v rev hl rfl

theorem PhaseRun.updates_once (h : PhaseRun D S G clock ls c) {k k' : KvKey} {v v' : Entry}
    {rev rev' : Revision} {r r' : Except FabricError Unit}
    (hl : .call t (.updateIf k v rev) r ∈ ls) (hl' : .call t (.updateIf k' v' rev') r' ∈ ls) :
    k = k' ∧ r = r' := by
  have hfirst : ∀ {before e e' k v rev r k' v' rev' r'}, PhaseRun D S G clock before e →
      GuardedStep service (machine D S) (start D S) G e (.call t (.updateIf k v rev) r) e' →
      .call t (.updateIf k' v' rev') r' ∉ before := by
    intro before e e' k v rev r k' v' rev' r' hbefore hstep hold
    obtain ⟨ph, ph', ht, hm, -⟩ := step_call hstep.1
    obtain ⟨x, y, now, rfl, -⟩ := hm.updateIf
    obtain ⟨b, a, e₁, e₁', rfl, hb, hstep', -⟩ := Trace.at_label hbefore hold
    obtain ⟨ph₀, ph₀', -, hm', -⟩ := step_call hstep'.1
    obtain ⟨y', z, now', -, -, rfl, rfl, -⟩ := hm'.updateIf
    have hmarked : Marked D (b ++ .call t (.updateIf (rowKey D z.held.row.id)
        (.token (z.replaced now')) rev') r' :: a) t (z.replaced now') := ⟨rev', r', hold⟩
    obtain ⟨ph₁, ht₁, hclosing⟩ := hmarked.closing hbefore
    rw [ht] at ht₁
    cases ht₁
    cases hclosing
  rcases Trace.first_of_two h hl hl' with heq | ⟨before, _, e, e', -, hbefore, hstep, hold⟩ |
    ⟨before, _, e, e', -, hbefore, hstep, hold⟩
  · cases heq
    exact ⟨rfl, rfl⟩
  · exact absurd hold (hfirst hbefore hstep)
  · exact absurd hold (hfirst hbefore hstep)

theorem PhaseRun.calls_later (h : PhaseRun D S G clock ls c) {q : Request}
    (hseg : PhaseSegment D S G c ms d) (hq : .arrive t q ∈ ms) {o : Op} {r : o.Reply} :
    .call t o r ∉ ls := by
  intro hl
  obtain ⟨ph, ht⟩ := Trace.called h hl
  rw [((Trace.arrived hseg).1 t q hq).1] at ht
  cases ht

end Calls

section Clients

/-- The request takes a refresh token to `/auth/refresh`, or to `/auth/check` with silent
refresh on and an access token that has expired whenever the request reads the clock. -/
structure Brings (D : Deps) (S : AppState) (ls : List Event) (t : ℕ) (q : Request) (jwt : String) :
    Prop where
  presented : q.refreshJwt S = some jwt
  route : (∃ headers body, q = .refresh headers body) ∨
    ∃ headers token, q = .check headers ∧ S.authCheckSilentRefresh = true ∧
      extractAccessCookie headers S.cookieConfig = some token ∧
      ∀ now, .call t .utcNow now ∈ ls → S.jwt.accessVerdict D token now = .error .Expired

/-- A client logs in to family `f` and from then on presents the refresh token it was sent
last, one request after the other. These are its requests, the token it has now, and the
time at which the request arrived that it has it from. -/
inductive Client (D : Deps) (S : AppState) (G : Assumption) (clock : ℕ) (f : Uuid) :
    List Event → ServiceState → List ℕ → String → ℕ → Prop
  | login {ls ms : List Event} {c d : ServiceState} {t : ℕ} {headers : HeaderMap}
      {body : Option TokenRequest} {row : RefreshToken} {r : Response} {jwt : String}
      (run : Run D S G clock ls c) (served : Segment D S G c (.arrive t (.token headers body) :: ms) d)
      (placed : Placed D ms t row) (family : row.familyId = f) (answer : d.response t = some r)
      (sent : r.Sets S.cookieConfig.refreshCookieName jwt) (nonempty : jwt ≠ "") :
      Client D S G clock f (ls ++ .arrive t (.token headers body) :: ms) d [t] jwt c.world.clock
  | visit {ls ms ns : List Event} {c d e : ServiceState} {ts : List ℕ} {jwt jwt' : String}
      {since u : ℕ} {q : Request} {r : Response} (prior : Client D S G clock f ls c ts jwt since)
      (wait : Segment D S G c ms d) (served : Segment D S G d (.arrive u q :: ns) e)
      (presented : q.refreshJwt S = some jwt) (answer : e.response u = some r)
      (sent : r.Sets S.cookieConfig.refreshCookieName jwt') (nonempty : jwt' ≠ "") :
      Client D S G clock f (ls ++ (ms ++ .arrive u q :: ns)) e (u :: ts) jwt' d.world.clock

/-- Nobody but these requests presents a refresh token of the family, and none of them to
log out. -/
def Alone (D : Deps) (S : AppState) (ls : List Event) (f : Uuid) (ts : List ℕ) : Prop :=
  ∀ v κ id, Presents D S ls v κ f id → κ = .rotation ∧ v ∈ ts

/-- Request `t` came with the refresh token `id`. -/
def Spends (D : Deps) (S : AppState) (ls : List Event) (t : ℕ) (id : Uuid) : Prop :=
  ∃ q email refreshed, .arrive t q ∈ ls ∧
    q.refreshJwt S = some (S.jwt.refreshToken D email id refreshed)

theorem Spends.mono (hsub : ls ⊆ ms) (h : Spends D S ls t id) : Spends D S ms t id := by
  obtain ⟨q, email, refreshed, hq, hjwt⟩ := h
  exact ⟨q, email, refreshed, hsub hq, hjwt⟩

theorem Spends.verified (h : PhaseSegment D S G c ls d) (hs : Spends D S ls t id) {email : String}
    {id' : Uuid} (hv : Verified D S ls t email id') : id' = id := by
  obtain ⟨q, email₀, refreshed, hq, hjwt⟩ := hs
  obtain ⟨q', jwt, now, claims, hq', hjwt', -, hverdict, -, hjti⟩ := hv
  cases (Trace.arrived h).2 t q q' hq hq'
  rw [hjwt] at hjwt'
  cases hjwt'
  rw [(S.jwt.refreshVerdict_ok D hverdict).2] at hjti
  exact (Option.some.inj hjti).symm

/-- The token a request sends in its response: signed while it was served, for a row that
it stored. -/
theorem PhaseRun.receives (h : PhaseRun D S G clock ls c) {q : Request}
    (hseg : PhaseSegment D S G c (.arrive t q :: ms) d) {r : Response} {jwt : String}
    (hr : d.result (machine D S) t = some r) (hset : r.Sets S.cookieConfig.refreshCookieName jwt)
    (hne : jwt ≠ "") : ∃ ph o row refreshed, d.threads t = some ph ∧ ph.outcome = some o ∧
      o.row = some row ∧ jwt = S.jwt.refreshToken D row.email row.id refreshed ∧
      Placed D (.arrive t q :: ms) t row ∧ c.world.clock ≤ refreshed ∧
      refreshed ≤ d.world.clock := by
  have hrun := h.trans hseg
  have hq : .arrive t q ∈ Label.arrive t q :: ms := .head _
  have hlater : ∀ {o : Op} {r : o.Reply}, .call t o r ∈ ls ++ .arrive t q :: ms →
      .call t o r ∈ Label.arrive t q :: ms :=
    fun hl => (List.mem_append.mp hl).resolve_left (PhaseRun.calls_later h hseg hq)
  obtain ⟨ph, ht, hview⟩ := finished_iff.mp hr
  obtain ⟨o, a, ho, htokens⟩ := (sets_refresh hview hne).mp hset
  have hsigned : ∃ row refreshed, o.row = some row ∧ o.refreshed = some refreshed ∧
      jwt = S.jwt.refreshToken D row.email row.id refreshed := by
    cases o with
    | granted y =>
      cases htokens
      exact ⟨_, _, rfl, rfl, rfl⟩
    | opened p =>
      cases htokens
      exact ⟨_, _, rfl, rfl, rfl⟩
    | _ => cases htokens
  obtain ⟨row, refreshed, hrow, hrefreshed, hjwt⟩ := hsigned
  have hread : ph.refreshed = some refreshed := by
    cases ph with
    | settle x o' =>
      cases ho
      exact hrefreshed
    | done x o' sid =>
      cases ho
      exact hrefreshed
    | _ => cases ho
  have hbetween := PhaseSegment.read_between hseg (hlater (PhaseRun.refreshed_read hrun ht hread))
  exact ⟨ph, o, row, refreshed, ht, ho, hrow, hjwt, hlater (PhaseRun.outcome_row hrun ht ho hrow).1,
    hbetween.1, hbetween.2⟩

/-- What a client's last token stands for: a row of the family that one of its requests
stored. Each of its requests was the login or has spent another token. -/
structure Holding (D : Deps) (S : AppState) (f : Uuid) (ls : List Event) (c : PhaseState)
    (ts : List ℕ) (jwt : String) (since : ℕ) (row : RefreshToken) (refreshed : ℕ) : Prop where
  placed : ∃ w ∈ ts, Placed D ls w row
  family : row.familyId = f
  signed : jwt = S.jwt.refreshToken D row.email row.id refreshed
  late : since ≤ refreshed
  read : refreshed ≤ c.world.clock
  kept : c.world.clock < since + S.jwt.refreshTtlSecs.toNat → Kept D c.world since row.id
  spent : ∀ v ∈ ts, Arrived ls v .login ∨
    ∃ old, Spends D S ls v old.id ∧ Committed D ls v old ∧ old.id ≠ row.id

section Holding
variable {jwt jwt' : String} {ts : List ℕ} {row : RefreshToken} {refreshed : ℕ} {q : Request}
  {r : Response}

theorem Holding.login (hG : ∀ w r l, G w r l → MaxAge S.jwt.refreshTtlSecs.toNat w r l)
    (h : PhaseRun D S G clock ls c) (hq : q.kind = .login)
    (hseg : PhaseSegment D S G c (.arrive t q :: ms) d) (hp : Placed D ms t row)
    (hf : row.familyId = f) (hr : d.result (machine D S) t = some r)
    (hset : r.Sets S.cookieConfig.refreshCookieName jwt) (hne : jwt ≠ "") :
    ∃ refreshed, Holding D S f (ls ++ .arrive t q :: ms) d [t] jwt c.world.clock row refreshed := by
  have hrun := h.trans hseg
  obtain ⟨ph, o, row', refreshed, -, -, -, hjwt, hplaced, hlate, hread⟩ :=
    PhaseRun.receives h hseg hr hset hne
  have hwhole : Placed D (ls ++ .arrive t q :: ms) t row' := List.mem_append_right _ hplaced
  have hsub : ms ⊆ ls ++ .arrive t q :: ms := fun _ hl => List.mem_append_right _ (.tail _ hl)
  obtain rfl : row' = row := hwhole.stored.only hrun (hp.mono hsub).stored
  refine ⟨refreshed, ⟨t, .head _, hwhole⟩, hf, hjwt, hlate, hread, ?_, ?_⟩
  · exact fun htime => PhaseRun.placed_kept hG h hseg hplaced htime
  · intro v hv
    rw [List.mem_singleton.mp hv]
    exact .inl ⟨q, List.mem_append_right _ (.head _), hq⟩

theorem Holding.wait (hG : ∀ w r l, G w r l → MaxAge S.jwt.refreshTtlSecs.toNat w r l)
    (h : PhaseRun D S G clock ls c) (hh : Holding D S f ls c ts jwt since row refreshed)
    (hseg : PhaseSegment D S G c ms d) :
    Holding D S f (ls ++ ms) d ts jwt since row refreshed := by
  have hsub : ls ⊆ ls ++ ms := List.subset_append_left _ _
  have hle := PhaseSegment.clock_le hseg
  obtain ⟨w, hw, hplaced⟩ := hh.placed
  refine ⟨⟨w, hw, hplaced.mono hsub⟩, hh.family, hh.signed, hh.late, hh.read.trans hle, ?_, ?_⟩
  · intro htime
    exact (PhaseRun.kept_stays hG h hseg htime (hh.kept (hle.trans_lt htime))).1
  · intro v hv
    refine (hh.spent v hv).imp (fun hlogin => hlogin.mono hsub) ?_
    rintro ⟨old, hspends, hcommitted, hne⟩
    exact ⟨old, hspends.mono hsub, hcommitted.mono hsub, hne⟩

theorem PhaseRun.stored_later (h : PhaseRun D S G clock ls c)
    (hseg : PhaseSegment D S G c (.arrive t q :: ms) d) {w : ℕ} {old : RefreshToken}
    (hs : Stored D ls w old) (hp : Placed D (.arrive t q :: ms) t row) : old.id ≠ row.id := by
  intro hid
  have hstored := hs.mono (List.subset_append_left ls (.arrive t q :: ms))
  have hplaced : Placed D (ls ++ .arrive t q :: ms) t row := List.mem_append_right _ hp
  obtain ⟨rfl, -⟩ := PhaseRun.stored_once (h.trans hseg) hstored hplaced.stored hid
  obtain ⟨r, hl⟩ := hs
  exact PhaseRun.calls_later h hseg (.head _) hl

theorem Holding.visit (hG : ∀ w r l, G w r l → MaxAge S.jwt.refreshTtlSecs.toNat w r l)
    (h : PhaseRun D S G clock ls c) (hh : Holding D S f ls c ts jwt since row refreshed)
    (hseg : PhaseSegment D S G c (.arrive u q :: ms) d) (hjwt : q.refreshJwt S = some jwt)
    (hr : d.result (machine D S) u = some r) (hset : r.Sets S.cookieConfig.refreshCookieName jwt')
    (hne : jwt' ≠ "") : ∃ row' refreshed', Holding D S f (ls ++ .arrive u q :: ms) d (u :: ts) jwt'
      c.world.clock row' refreshed' := by
  have hrun := h.trans hseg
  have hsub : ls ⊆ ls ++ .arrive u q :: ms := List.subset_append_left _ _
  have hq : .arrive u q ∈ ls ++ .arrive u q :: ms := List.mem_append_right _ (.head _)
  obtain ⟨ph, o, row', refreshed', ht, ho, hrow, hjwt', hplaced, hlate, hread⟩ :=
    PhaseRun.receives h hseg hr hset hne
  have hspends : Spends D S (ls ++ .arrive u q :: ms) u row.id :=
    ⟨q, row.email, refreshed, hq, hjwt.trans (congrArg some hh.signed)⟩
  cases o with
  | granted y =>
    cases hrow
    obtain ⟨w, hw, hold⟩ := hh.placed
    -- the rotation found the row of the token it came with
    have hclaimed : Verified D S (ls ++ .arrive u q :: ms) u y.email y.held.row.id := by
      refine PhaseRun.claimed hrun ht ?_
      cases ph <;> cases ho <;> rfl
    have hid : y.held.row.id = row.id := hspends.verified hrun hclaimed
    have hfound := PhaseRun.held_found hrun ht (granted_held ho)
    obtain ⟨v, hissued⟩ := hfound.issued hrun
    have hsame : y.held.row.issued = row :=
      (PhaseRun.stored_once hrun hissued (hold.mono hsub).stored hid).2
    have hfamily : y.held.row.issued.familyId = row.familyId := by rw [hsame]
    obtain ⟨now, hcommit⟩ := PhaseRun.granted_committed hrun ht ho
    refine ⟨y.successor, refreshed', ⟨u, .head _, List.mem_append_right _ hplaced⟩,
      hfamily.trans hh.family, hjwt', hlate, hread, ?_, ?_⟩
    · exact fun htime => PhaseRun.placed_kept hG h hseg hplaced htime
    · intro v hv
      rcases List.mem_cons.mp hv with rfl | hv
      · refine .inr ⟨y.replaced now, hid ▸ hspends, ⟨_, hcommit⟩, ?_⟩
        have hlater := PhaseRun.stored_later h hseg hold.stored hplaced
        rwa [← hid] at hlater
      · refine (hh.spent v hv).imp (fun hlogin => hlogin.mono hsub) ?_
        rintro ⟨old, hspends, hcommitted, -⟩
        obtain ⟨x, now, rfl, hx, -⟩ := hcommitted.marked.rotation h
        obtain ⟨w, hissued⟩ := hx.issued h
        have hother : x.held.row.issued.id ≠ y.successor.id :=
          PhaseRun.stored_later h hseg hissued hplaced
        exact ⟨_, hspends.mono hsub, hcommitted.mono hsub, hother⟩
  | opened p =>
    obtain ⟨q', hq', hkind⟩ := PhaseRun.arrived hrun ht (opened_kind ho)
    cases (Trace.arrived hrun).2 u q q' hq hq'
    cases q with
    | token headers body => cases hjwt
    | refresh headers body => cases hkind
    | check headers => cases hkind
    | logout headers => cases hkind
  | _ => cases hrow

theorem Client.holding {s : ServiceState}
    (hG : ∀ w r l, G w r l → MaxAge S.jwt.refreshTtlSecs.toNat w r l)
    (h : Client D S G clock f ls s ts jwt since) : ∃ c, PhaseRun D S G clock ls c ∧
      Mirrors D S s c ∧ ∃ row refreshed, Holding D S f ls c ts jwt since row refreshed := by
  induction h with
  | @login ls ms c d t headers body row r jwt run served placed family answer sent nonempty =>
    obtain ⟨c', hc, hm⟩ := Segment.phases (mirrors_initial _) run
    obtain ⟨d', hd, hm'⟩ := Segment.phases hm served
    rw [hm'.response] at answer
    obtain ⟨refreshed, hh⟩ := Holding.login hG hc rfl hd placed family answer sent nonempty
    exact ⟨d', hc.trans hd, hm', row, refreshed, by rw [hm.1]; exact hh⟩
  | @visit ls ms ns c d e ts jwt jwt' since u q r prior wait served presented answer sent nonempty
      ih =>
    obtain ⟨c', hc, hm, row, refreshed, hh⟩ := ih
    obtain ⟨d', hd, hm'⟩ := Segment.phases hm wait
    obtain ⟨e', he, hm''⟩ := Segment.phases hm' served
    rw [hm''.response] at answer
    obtain ⟨row', refreshed', hh'⟩ :=
      (hh.wait hG hc hd).visit hG (hc.trans hd) he presented answer sent nonempty
    rw [List.append_assoc] at hh'
    refine ⟨e', ?_, hm'', row', refreshed', by rw [hm'.1]; exact hh'⟩
    exact hc.trans (hd.trans he)

theorem Holding.rotates (hh : Holding D S f ls c ts jwt since row refreshed)
    (h : PhaseRun D S G clock ls c) (hseg : PhaseSegment D S G c (.arrive u q :: ms) d)
    (hbrings : Brings D S ms u q jwt) (htime : d.world.clock < since + S.jwt.refreshTtlSecs.toNat)
    (hstart : clockSkewLeewaySecs ≤ clock)
    (hfits : d.world.clock + S.jwt.refreshTtlSecs.toNat < 2 ^ 63) :
    Rotates D S (ls ++ .arrive u q :: ms) u q jwt row.id := by
  have hlater : ∀ now, .call u .utcNow now ∈ ls ++ .arrive u q :: ms → .call u .utcNow now ∈ ms := by
    intro now hl
    rcases List.mem_append.mp hl with hl | hl
    · exact absurd hl (PhaseRun.calls_later h hseg (.head _))
    · exact (List.mem_cons.mp hl).resolve_left (by simp)
  refine ⟨hbrings.presented, hbrings.route.imp_right ?_, ?_⟩
  · rintro ⟨headers, token, hq, hon, htoken, hexpired⟩
    exact ⟨headers, token, hq, hon, htoken, fun now hl => hexpired now (hlater now hl)⟩
  · intro now hl
    obtain ⟨hfrom, hnow⟩ := PhaseSegment.read_between hseg (.tail _ (hlater now hl))
    have hread := hh.read
    have hlate := hh.late
    have hle := PhaseSegment.clock_le hseg
    have hbegan : clock ≤ c.world.clock := PhaseSegment.clock_le h
    have hleeway := leewayStart_eq (show clockSkewLeewaySecs ≤ now by omega)
    have hexact := expiry_exact_iff.mpr
      (show refreshed + S.jwt.refreshTtlSecs.toNat < 2 ^ 63 by omega)
    have hsign : ¬ (Int64.ofNat refreshed + S.jwt.refreshTtlSecs.toInt64).toInt < 0 := by omega
    have hfresh : ¬ (Int64.ofNat refreshed + S.jwt.refreshTtlSecs.toInt64).toInt <
        leewayStart clockSkewLeewaySecs now := by omega
    have hok : S.jwt.refreshVerdict D jwt now =
        .ok (S.jwt.refreshClaims D row.email row.id refreshed) := by
      rw [hh.signed, S.jwt.refreshVerdict_refreshToken, JwtService.expiryVerdict]
      exact (if_neg hsign).trans (if_neg hfresh)
    refine ⟨_, hok, ?_⟩
    rw [hh.signed] at hok
    exact (S.jwt.refreshVerdict_ok D hok).2

theorem Holding.finds (hG : ∀ w r l, G w r l → Aligned S w r l)
    (hh : Holding D S f ls c ts jwt since row refreshed) (h : PhaseRun D S G clock ls c)
    (hseg : PhaseSegment D S G c (.arrive u q :: ms) d)
    (htime : d.world.clock < since + S.jwt.refreshTtlSecs.toNat)
    {answer : Except FabricError (Option (Entry × Revision))}
    (hl : .call u (.get (rowKey D row.id)) answer ∈ ls ++ .arrive u q :: ms) :
    ∃ x, Found D (ls ++ .arrive u q :: ms) u x ∧ x.row.id = row.id ∧ x.row.familyId = f := by
  have hrun := h.trans hseg
  have hlater := (List.mem_append.mp hl).resolve_left (PhaseRun.calls_later h hseg (.head _))
  obtain ⟨before, after, e, e', hms, hbefore, hstep, hafter⟩ := Trace.at_label hseg hlater
  have hle := PhaseSegment.clock_le hseg
  have hend : e.world.clock < since + S.jwt.refreshTtlSecs.toNat :=
    ((step_clock hstep.1).trans (PhaseSegment.clock_le hafter)).trans_lt htime
  obtain ⟨⟨cell, hcell, -⟩, -⟩ := PhaseRun.kept_stays (fun w r l hg => (hG w r l hg).1) h hbefore
    hend (hh.kept (hle.trans_lt htime))
  obtain ⟨x, hv, -⟩ := PhaseRun.row_cell (h.trans hbefore) hcell
  have hread : e.world.read (rowKey D row.id) = some (.token x, cell.revision) := by
    simp [World.read, hcell, hv]
  obtain ⟨-, -, -, -, hanswer, -⟩ := step_call hstep.1
  rcases hanswer.of_get.2 with rfl | rfl
  · rw [hread] at hl
    obtain ⟨hid, hfound⟩ := Found.of_read hrun hl
    obtain ⟨v, hissued⟩ := hfound.issued hrun
    obtain ⟨w, -, hplaced⟩ := hh.placed
    have hsame : x.issued = row :=
      (PhaseRun.stored_once hrun hissued (hplaced.mono (List.subset_append_left _ _)).stored hid).2
    have hfamily : x.issued.familyId = row.familyId := by rw [hsame]
    exact ⟨_, hfound, hid, hfamily.trans hh.family⟩
  · cases (hG _ _ _ hstep.2).2

/-- A row of the family that lapsed would have to be the client's, and that is kept. -/
theorem Holding.unlapsed (hG : ∀ w r l, G w r l → MaxAge S.jwt.refreshTtlSecs.toNat w r l)
    (hh : Holding D S f ls c ts jwt since row refreshed) (h : PhaseRun D S G clock ls c)
    (hseg : PhaseSegment D S G c (.arrive u q :: ms) d)
    (htime : d.world.clock < since + S.jwt.refreshTtlSecs.toNat)
    (hspends : Spends D S (ls ++ .arrive u q :: ms) u row.id)
    (halone : Alone D S (ls ++ .arrive u q :: ms) f (u :: ts)) {v : ℕ} {x : Held}
    (hf : x.row.familyId = f) : ¬ Lapsed D (ls ++ .arrive u q :: ms) v x := by
  have hrun := h.trans hseg
  have hsub : ls ⊆ ls ++ .arrive u q :: ms := List.subset_append_left _ _
  rintro ⟨before, mid, after, w, hlog, hexpired⟩
  have hfound : Found D (ls ++ .arrive u q :: ms) v x := by
    rw [hlog]
    exact List.mem_append_right _ (.head _)
  have hconflict : .call v (.updateIf (rowKey D x.row.id) w x.revision)
      (.error .RevisionConflict) ∈ ls ++ .arrive u q :: ms := by
    rw [hlog]
    exact List.mem_append_right _ (.tail _ (List.mem_append_right _ (.head _)))
  have harrived : Arrived (ls ++ .arrive u q :: ms) v .rotation := by
    obtain ⟨b, a, e, e', hls, hb, hstep, -⟩ := Trace.at_label hrun hconflict
    obtain ⟨ph, ph', ht, hm, -⟩ := step_call hstep.1
    obtain ⟨y, z, now, rfl, -⟩ := hm.updateIf
    rw [hls]
    exact (PhaseRun.arrived hb ht rfl).mono (List.subset_append_left _ _)
  have hpresents := hfound.presents hrun harrived
  rw [hf] at hpresents
  rcases List.mem_cons.mp (halone v .rotation _ hpresents).2 with rfl | hv
  · -- the request at hand found the client's row, which does not expire meanwhile
    have hid : x.row.id = row.id := hspends.verified hrun hpresents.2.1.choose_spec
    have hnone := (PhaseRun.kept_stays hG h hseg htime
      (hh.kept ((PhaseSegment.clock_le hseg).trans_lt htime))).2
    have hread : .call v (.get (rowKey D x.row.id)) (.ok (some (.token x.row, x.revision))) ∉ ls :=
      PhaseRun.calls_later h hseg (.head _)
    obtain ⟨p, hp, hgone⟩ := hexpired
    rw [hid] at hgone
    refine hnone ⟨p, ?_, hgone⟩
    rcases List.append_eq_append_iff.mp hlog with ⟨xs, -, hms⟩ | ⟨xs, hls, hrest⟩
    · rw [hms]
      simp [hp]
    · cases xs with
      | nil =>
        rw [List.nil_append] at hrest
        rw [← hrest]
        simp [hp]
      | cons a xs =>
        rw [List.cons_append] at hrest
        obtain ⟨rfl, -⟩ := List.cons.inj hrest
        exact absurd (by simp [hls]) hread
  · rcases hh.spent v hv with hlogin | ⟨old, -, ⟨rev, hcommit⟩, -⟩
    · cases Arrived.unique hrun harrived (hlogin.mono hsub)
    · cases (PhaseRun.updates_once hrun hconflict (hsub hcommit)).2

theorem Holding.unmarked (hG : ∀ w r l, G w r l → MaxAge S.jwt.refreshTtlSecs.toNat w r l)
    (hh : Holding D S f ls c ts jwt since row refreshed) (h : PhaseRun D S G clock ls c)
    (hseg : PhaseSegment D S G c (.arrive u q :: ms) d)
    (htime : d.world.clock < since + S.jwt.refreshTtlSecs.toNat)
    (hspends : Spends D S (ls ++ .arrive u q :: ms) u row.id)
    (halone : Alone D S (ls ++ .arrive u q :: ms) f (u :: ts)) {v : ℕ} {w : Entry}
    {answer : Except FabricError Unit} :
    .call v (.put (markerKey D f) w) answer ∉ ls ++ .arrive u q :: ms := by
  intro hput
  have hrun := h.trans hseg
  have hsub : ls ⊆ ls ++ .arrive u q :: ms := List.subset_append_left _ _
  rcases marker_explained hrun hput with ⟨v, id, hpresents⟩ |
    ⟨v, v', id, hne, hpresents, hpresents'⟩ | ⟨v, x, hf, hlapsed⟩
  · cases (halone v .logout id hpresents).1
  · -- each request of the client spends a token of its own
    have hown : ∀ v, Presents D S (ls ++ .arrive u q :: ms) v .rotation f id → v ∈ ts →
        id ≠ row.id ∧ ∃ old, Committed D (ls ++ .arrive u q :: ms) v old ∧ old.id = id := by
      intro v hpresents hv
      rcases hh.spent v hv with hlogin | ⟨old, hspends, hcommitted, hother⟩
      · cases Arrived.unique hrun hpresents.1 (hlogin.mono hsub)
      · have hid := (hspends.mono hsub).verified hrun hpresents.2.1.choose_spec
        exact ⟨hid ▸ hother, old, hcommitted.mono hsub, hid.symm⟩
    have hhere : ∀ {email : String}, Verified D S (ls ++ .arrive u q :: ms) u email id →
        id = row.id := fun hverified => hspends.verified hrun hverified
    rcases List.mem_cons.mp (halone v .rotation id hpresents).2 with rfl | hv <;>
      rcases List.mem_cons.mp (halone v' .rotation id hpresents').2 with rfl | hv'
    · exact hne rfl
    · exact (hown v' hpresents' hv').1 (hhere hpresents.2.1.choose_spec)
    · exact (hown v hpresents hv).1 (hhere hpresents'.2.1.choose_spec)
    · obtain ⟨-, old, hcommitted, hid⟩ := hown v hpresents hv
      obtain ⟨-, old', hcommitted', hid'⟩ := hown v' hpresents' hv'
      exact hne (hcommitted.once hrun hcommitted' (hid.trans hid'.symm))
  · exact hh.unlapsed hG h hseg htime hspends halone hf hlapsed

/-- The rotation of a client that is alone and in time is granted. -/
theorem Holding.granted (hG : ∀ w r l, G w r l → Aligned S w r l)
    (hh : Holding D S f ls c ts jwt since row refreshed) (h : PhaseRun D S G clock ls c)
    (hseg : PhaseSegment D S G c (.arrive u q :: ms) d) (hbrings : Brings D S ms u q jwt)
    (hr : d.result (machine D S) u = some r)
    (htime : d.world.clock < since + S.jwt.refreshTtlSecs.toNat)
    (hstart : clockSkewLeewaySecs ≤ clock)
    (hfits : d.world.clock + S.jwt.refreshTtlSecs.toNat < 2 ^ 63)
    (halone : Alone D S (ls ++ .arrive u q :: ms) f (u :: ts)) : r.Rotated S := by
  have hage : ∀ w r l, G w r l → MaxAge S.jwt.refreshTtlSecs.toNat w r l :=
    fun w r l hg => (hG w r l hg).1
  have hrun := h.trans hseg
  have hq : .arrive u q ∈ ls ++ .arrive u q :: ms := List.mem_append_right _ (.head _)
  have hrotates := hh.rotates h hseg hbrings htime hstart hfits
  have hspends : Spends D S (ls ++ .arrive u q :: ms) u row.id :=
    ⟨q, row.email, refreshed, hq, hbrings.presented.trans (congrArg some hh.signed)⟩
  have hclear : ∀ {v : ℕ} {w : Entry} {answer : Except FabricError Unit},
      .call v (.put (markerKey D f) w) answer ∉ ls ++ .arrive u q :: ms :=
    hh.unmarked hage h hseg htime hspends halone
  obtain ⟨ph, ht, hview⟩ := finished_iff.mp hr
  obtain ⟨answer, hl⟩ := hrotates.looks_up hrun hq ht hview
  obtain ⟨x, hfound, -, hf⟩ := hh.finds hG h hseg htime hl
  obtain ⟨ph', ht', hheld⟩ := hfound.held hrun
  cases ht.symm.trans ht'
  have hfaultless : ∀ {o : Op} {answer : o.Reply}, .call u o answer ∈ ls ++ .arrive u q :: ms →
      failed o answer = false ∧ ∃ w w', Answers w o answer w' := by
    intro o answer hl
    obtain ⟨-, -, e, e', -, -, hstep, -⟩ := Trace.at_label hrun hl
    exact ⟨(hG _ _ _ hstep.2).2, _, _, hstep.1.executed⟩
  rcases finished_held hview hheld with ⟨o, ho, hox⟩ | hlogout
  · obtain ⟨op, answer', hdecides, hcall⟩ := PhaseRun.concluded hrun ht ho
    cases o with
    | granted y => exact granted_rotated hview ho
    | revoked z =>
      cases hox
      obtain ⟨m, rev, heq⟩ := hdecides
      cases heq
      rw [hf] at hcall
      obtain ⟨v, w, answer'', hput⟩ := PhaseRun.marker_written hrun hcall
      exact absurd hput hclear
    | reuse z =>
      cases hox
      obtain ⟨now, answer'', heq⟩ := hdecides
      cases heq
      rw [hf] at hcall
      exact absurd hcall hclear
    | unavailable z =>
      -- the store failed, which the assumption rules out
      exfalso
      obtain ⟨hok, w, w', hanswer⟩ := hfaultless hcall
      rcases hdecides with ⟨k, v, err, heq⟩ | ⟨k, v, rev, err, hother, heq⟩
      · cases heq
        rcases hanswer.put_answer with heq | hfailed
        · cases heq
        · rw [hok] at hfailed
          cases hfailed
      · cases heq
        rcases hanswer.updateIf_answer with heq | heq | hfailed
        · cases heq
        · exact hother (Except.error.inj heq)
        · rw [hok] at hfailed
          cases hfailed
    | _ => cases hox
  · cases Arrived.unique hrun ⟨q, hq, hrotates.kind⟩ (PhaseRun.arrived hrun ht hlogout)

end Holding

/-- An orderly client is never turned away. Let a client log in and then present each time
the refresh token it was sent last, one request after the other, through `/auth/refresh` or
silently through `/auth/check`. While nobody else presents a token of its family, its next
request that ends within the refresh TTL of the arrival of the one before is answered with
new tokens: whatever other clients do in between, and however their requests and the
passing of time interleave with its own. No call of the bucket fails, which keeps its entries
for the TTL; the leeway can be taken from the clock, and the TTL can be added to it. -/
theorem orderly_renewed (D : Deps) (S : AppState) (clock : ℕ) (f : Uuid) (ls ms ns : List Event)
    (c d e : ServiceState) (ts : List ℕ) (jwt : String) (since u : ℕ) (q : Request) (r : Response)
    (h : Client D S (Aligned S) clock f ls c ts jwt since) (wait : Segment D S (Aligned S) c ms d)
    (served : Segment D S (Aligned S) d (.arrive u q :: ns) e) (brings : Brings D S ns u q jwt)
    (answer : e.response u = some r)
    (inTime : e.world.clock < since + S.jwt.refreshTtlSecs.toNat)
    (started : clockSkewLeewaySecs ≤ clock)
    (fits : e.world.clock + S.jwt.refreshTtlSecs.toNat < 2 ^ 63)
    (alone : Alone D S (ls ++ (ms ++ .arrive u q :: ns)) f (u :: ts)) : r.Rotated S := by
  have hG : ∀ w r l, Aligned S w r l → MaxAge S.jwt.refreshTtlSecs.toNat w r l :=
    fun _ _ _ hg => hg.1
  obtain ⟨c', hc, hm, row, refreshed, hh⟩ := h.holding hG
  obtain ⟨d', hd, hm'⟩ := Segment.phases hm wait
  obtain ⟨e', he, hm''⟩ := Segment.phases hm' served
  rw [hm''.response] at answer
  rw [hm''.1] at inTime fits
  rw [← List.append_assoc] at alone
  exact (hh.wait hG hc hd).granted (fun _ _ _ hg => hg) (hc.trans hd) he brings answer inTime
    started fits alone

theorem Sample.client : ∃ c, Client deps state (Aligned state) moment (serial 2)
    (openingLog deps moment) c [0] (numberedJwt deps state moment 1) moment ∧
    Mirrors deps state c (opened deps moment) := by
  obtain ⟨c, hc, hm⟩ := PhaseSegment.service (mirrors_initial _)
    (opening_run deps state moment permits_aligned)
  have hplaced : Placed deps (openingLog deps moment).tail 0 (firstLogin Sample.moment).row :=
    List.mem_of_getElem? (i := 6) rfl
  have hresponse := (hm.response 0).trans (done_responds (Config.move_same _ _ _ _))
  have hne := state.jwt.refreshToken_ne_empty deps "user@example.com" (serial 1) Sample.moment
  have hsets := (sets_refresh (view_done ⟨.token, none⟩ (.opened (firstLogin Sample.moment))
    (serial 3)) hne).mpr ⟨_, _, rfl, rfl⟩
  exact ⟨c, .login (.nil _) hc hplaced rfl hresponse hsets hne, hm⟩

theorem Sample.alone : Alone deps state
    (openingLog deps moment ++ ([] ++ rotationLog deps state moment)) (serial 2) [1, 0] := by
  rintro v κ id ⟨⟨q, hq, rfl⟩, ⟨email, q', jwt, now, claims, hq', hjwt, -⟩, -⟩
  have harrivals : arrivals (openingLog deps moment ++ ([] ++ rotationLog deps state moment)) =
      [(0, .loggingIn "id-token"), (1, .presenting (numberedJwt deps state moment 1))] := rfl
  have hv := mem_arrivals hq
  have hv' := mem_arrivals hq'
  rw [harrivals] at hv hv'
  simp only [List.mem_cons, List.not_mem_nil, or_false, Prod.mk.injEq] at hv hv'
  rcases hv' with ⟨-, rfl⟩ | ⟨rfl, -⟩
  · cases hjwt
  · rcases hv with ⟨heq, -⟩ | ⟨-, rfl⟩
    · cases heq
    · exact ⟨rfl, .head _⟩

/-- Its first visit renews its tokens. -/
theorem orderly_renewed_sample : ∃ c e r, Segment Sample.deps Sample.state (Aligned Sample.state) c
    (rotationLog Sample.deps Sample.state Sample.moment) e ∧ e.response 1 = some r ∧
    r.Rotated Sample.state := by
  obtain ⟨c, hclient, hm⟩ := Sample.client
  obtain ⟨e, he, hm'⟩ := PhaseSegment.service hm
    (rotation_segment Sample.deps Sample.state Sample.moment permits_aligned Sample.live)
  have hresponse := (hm'.response 1).trans (done_responds (Config.move_same _ _ _ _))
  have hclock : e.world.clock = Sample.moment := by
    rw [hm'.1]
    rfl
  have hbrings : Brings Sample.deps Sample.state
      (rotationLog Sample.deps Sample.state Sample.moment).tail 1
      (.presenting (numberedJwt Sample.deps Sample.state Sample.moment 1))
      (numberedJwt Sample.deps Sample.state Sample.moment 1) :=
    ⟨presenting_refreshJwt (JwtService.refreshToken_ne_empty _ _ _ _ _), .inl ⟨_, _, rfl⟩⟩
  refine ⟨c, e, _, he, hresponse, orderly_renewed _ _ _ _ _ _ _ c c e _ _ _ 1 _ _ hclient (.nil _)
    he hbrings hresponse ?_ (by decide) ?_ Sample.alone⟩
  · rw [hclock]
    decide
  · rw [hclock]
    decide

end Clients

end SvcAuth
