import SvcAuth.SessionIdentity
import SvcAuth.WholeService

/-! Who vouches for a session. Behind every token that the whole service hands out stands
an id_token that a login presented, signed under a key that its provider served. -/
namespace SvcAuth
open Interleave JsonWebToken

section Tokens
variable {D : Deps} {providers : List OidcProvider} {idToken email : String} {now : ℕ}
  {tr : List OidcCalls.Event} {p : OidcProvider} {jwks : JwkSet}

/-- The id_token is of this provider, is signed under a key of this set, has not expired at
this time, and carries the email. -/
def Vouches (D : Deps) (p : OidcProvider) (jwks : JwkSet) (now : ℕ) (idToken email : String) :
    Prop :=
  ∃ (head body signature : String) (bytes : Bytes) (payload : Payload),
    idToken = compact head body signature ∧ D.b64Decode body = some bytes ∧
    D.fromJson bytes = some payload ∧ payload.getStr "iss" = some p.issuer ∧
    (∃ (jwk : Jwk) (key : DecodingKey) (header : Header), jwk ∈ jwks.keys ∧
      D.decodingKeyFromJwk jwk = .ok key ∧ key.family = header.alg.family ∧
      D.cryptoVerify signature (head ++ "." ++ body) key header.alg = true) ∧
    (∃ exp, numericType (lookup payload "exp") = .parsed exp ∧ now ≤ exp + 60) ∧ email ≠ "" ∧
    (payload.getStr p.emailClaim = some email ∨
      payload.getStr p.emailClaim = none ∧ payload.getStr "email" = some email)

theorem Accepted.vouches {claims : OidcClaims} (h : Accepted D providers idToken tr claims) :
    ∃ p ∈ providers, ∃ (jwks : JwkSet) (now : ℕ), ⟨.readJwks p, jwks⟩ ∈ tr ∧ ⟨.now, now⟩ ∈ tr ∧
      Vouches D p jwks now idToken claims.email := by
  obtain ⟨payload, p, header, jwks, jwk, key, now, decoded, hparsed, hselected, -, hcached,
    hpicked, hkey, hnow, hdecode, hemail⟩ := h
  obtain ⟨hmem, hiss⟩ := selectProvider_some hselected
  obtain ⟨head, body, signature, bytes, header', c, rfl, hbytes, hjson, -, halg, hfamily, hverify,
    hc, hvalid⟩ := decode_same_payload hparsed hdecode
  obtain ⟨exp, hexp, hfresh⟩ := exp_of_validate hvalid
  obtain ⟨hne, hclaim⟩ := extractEmailFromPayload_ok hemail
  refine ⟨p, hmem, jwks, now, hcached, hnow, head, body, signature, bytes, payload, rfl, hbytes,
    hjson, hiss, ⟨jwk, key, header', hpicked, hkey, hfamily _ halg, hverify⟩, ⟨exp, ?_, hfresh⟩,
    hne, hclaim⟩
  rw [← (claimsForValidation_fields hc).1, hexp]

theorem resolve_write {kid : Option String} {k : Unit → OidcAction (Except String Jwk)}
    {p' : OidcProvider} (h : Prog.After (p.resolve kid) tr (.call (.writeJwks p' jwks) k)) :
    p' = p ∧ ⟨.fetchJwks p.jwksUri, .ok jwks⟩ ∈ tr := by
  cases kid with
  | some kid =>
    obtain ⟨old, rest, rfl, hrest⟩ := resolveKey_after h (by simp)
    cases hrest with
    | fetched passed => exact ⟨rfl, by simp⟩
  | none =>
    rw [OidcProvider.resolve, OidcProvider.resolveSingleKey, readJwks_bind] at h
    obtain ⟨set, rest, rfl, h₁⟩ := h.answered (by simp)
    split at h₁ <;> exact h₁.not_ret.elim

theorem verifyIdToken_write {k : Unit → OidcAction (Except String OidcClaims)}
    (h : Prog.After (verifyIdToken D providers idToken) tr (.call (.writeJwks p jwks) k)) :
    ⟨.fetchJwks p.jwksUri, .ok jwks⟩ ∈ tr := by
  rcases verifyIdToken_cases D providers idToken with
    ⟨payload, header, provider, -, -, -, hrouted⟩ | ⟨e, hrefused⟩
  · rw [hrouted] at h
    rcases Prog.after_bind h with ⟨k', h₁⟩ | ⟨r, t₁, t₂, rfl, -, h₁⟩
    · obtain ⟨rfl, hfetched⟩ := resolve_write h₁
      exact hfetched
    · cases r with
      | error e => exact h₁.not_ret.elim
      | ok jwk =>
        simp only [judge] at h₁
        split at h₁
        · exact h₁.not_ret.elim
        · obtain ⟨now, rest, rfl, h₂⟩ := h₁.answered (by simp)
          exact h₂.not_ret.elim
  · rw [hrefused] at h
    exact h.not_ret.elim

end Tokens

section Caches
variable {W : ContractDeps} {key : BearerSealKey} {providers : List OidcProvider} {S : AppState}
  {G : Assumption} {clock boot : ℕ} {bearers : KvKey → Option Bytes}
  {served : OidcProvider → JwkSet} {lastRefresh : OidcProvider → ℕ} {ms ms' : List WholeLabel}
  {d : WholeState} {t : ℕ} {p : OidcProvider} {jwks : JwkSet}

/-- The provider served this set: at boot, or to a request that fetched from its `jwks_uri`. -/
def Served (served : OidcProvider → JwkSet) (ms : List WholeLabel) (p : OidcProvider)
    (jwks : JwkSet) : Prop :=
  jwks = served p ∨ ∃ t, .call t (.oidc (.fetchJwks p.jwksUri)) (.ok jwks) ∈ ms

theorem Served.mono (hsub : ms ⊆ ms') (h : Served served ms p jwks) : Served served ms' p jwks :=
  h.imp id fun ⟨t, hl⟩ => ⟨t, hsub hl⟩

theorem carried_onOidc {es : List OidcCalls.Event} {tr : List WholeCalls.Event}
    (h : Prog.Carried onOidc es tr) {o : OidcOp} {r : o.Reply} (hmem : ⟨o, r⟩ ∈ es) :
    ⟨.oidc o, r⟩ ∈ tr := by
  obtain ⟨before, mid, after, rfl, hran⟩ := h.split hmem
  obtain ⟨r', rest, rfl, hrest⟩ := Prog.ran_call.mp hran
  obtain ⟨rfl, rfl⟩ := Prog.ran_ret.mp hrest
  simp

/-- A set that is written into a cache was fetched before by the same request. -/
theorem WholeRun.write_fetched (h : WholeRun W key providers S G
    (.booted clock bearers served lastRefresh boot) ms d) {before after : List WholeLabel}
    (hms : ms = before ++ .call t (.oidc (.writeJwks p jwks)) () :: after) :
    .call t (.oidc (.fetchJwks p.jwksUri)) (.ok jwks) ∈ before := by
  obtain ⟨q, k, -, hafter⟩ := Trace.call_after h hms
  obtain ⟨es, o, k', t₁, t₂, k₀, -, -, hcalls, hinside⟩ := Prog.after_interpret hafter
  refine mem_callsOf.mp ?_
  rw [hcalls]
  refine List.mem_append_right _ ?_
  rcases carryWhole_cases W key providers o with ⟨idToken, rfl⟩ | ⟨token, rfl⟩ | hown
  · obtain ⟨fs, o', k'', u₁, u₂, k₁, hverify, hcarried, rfl, hlast⟩ := Prog.after_interpret hinside
    rcases Prog.after_call.mp hlast with ⟨rfl, heq⟩ | ⟨r, rest, -, hdone⟩
    · cases heq
      rw [List.append_nil]
      exact carried_onOidc hcarried (verifyIdToken_write hverify)
    · exact hdone.not_ret.elim
  · rw [carryWhole_resolve] at hinside
    rcases Prog.after_call.mp hinside with ⟨-, heq⟩ | ⟨r, rest, -, hdone⟩
    · cases heq
    · exact hdone.not_ret.elim
  · rw [hown] at hinside
    rcases Prog.after_call.mp hinside with ⟨-, heq⟩ | ⟨r, rest, -, hdone⟩
    · cases heq
    · exact hdone.not_ret.elim

theorem WholeRun.cached (h : WholeRun W key providers S G
    (.booted clock bearers served lastRefresh boot) ms d) (p : OidcProvider) :
    Served served ms p (d.world.jwks p) := by
  refine h.invariant (I := fun ms d => ∀ p, Served served ms p (d.world.jwks p)) ?_ ?_ p
  · exact fun p => .inl rfl
  · intro ms d m e prior ih hs p
    have hgrows : ms ⊆ ms ++ [m] := List.subset_append_left _ _
    have hsame : e.world.jwks = d.world.jwks → Served served (ms ++ [m]) p (e.world.jwks p) := by
      intro heq
      rw [heq]
      exact (ih p).mono hgrows
    rcases hs.1.inv with ⟨t, q, -, -, hw, -⟩ | ⟨t, ph, o, k, r, rfl, -, -, answer, -⟩ |
      ⟨f, -, hf, -⟩
    · exact hsame (by rw [hw])
    · generalize hw : e.world = w at answer hsame ⊢
      cases answer with
      | wire answer => exact hsame rfl
      | oidc answer =>
        cases answer with
        | writeJwks p' jwks =>
          by_cases hp : p = p'
          · subst hp
            have hfetched := WholeRun.write_fetched (.snoc prior hs) rfl
            simp only [Function.update_self]
            exact .inr ⟨t, hgrows hfetched⟩
          · simp only [Function.update_of_ne hp]
            exact (ih p).mono hgrows
        | _ => exact hsame rfl
    · generalize e.world = w at hf hsame ⊢
      cases hf with
      | passage => exact hsame rfl
      | tamper => exact hsame rfl

theorem WholeRun.read_served (h : WholeRun W key providers S G
    (.booted clock bearers served lastRefresh boot) ms d)
    (hread : .call t (.oidc (.readJwks p)) jwks ∈ ms) : Served served ms p jwks := by
  obtain ⟨before, after, e, e', rfl, hbefore, hstep, -⟩ := h.at_label hread
  have hcached : Served served before p (e.world.jwks p) := WholeRun.cached hbefore p
  have hanswer := hstep.1.executed
  generalize e'.world = w at hanswer
  cases hanswer with
  | oidc answer =>
    cases answer with
    | readJwks => exact hcached.mono (List.subset_append_left _ _)

end Caches

section Logins
variable {D : Deps} {S : AppState} {G : Assumption} {clock t : ℕ} {ls : List Event}
  {c : PhaseState} {c' : ServiceState} {idToken : String}

theorem start_login {q : Request} {s : Option String} (h : start D S q = .login s idToken) :
    ∃ headers grant, q = .token headers (some ⟨grant, some idToken⟩) := by
  have hstarts := starts D S q
  rw [h] at hstarts
  cases hstarts with
  | @login headers body =>
    simp only [start, startToken] at h
    rcases body with _ | ⟨_ | grant, presented⟩
    · cases h
    · cases h
    · simp only at h
      split at h
      · cases h
      · split at h
        · cases h
        · rename_i tok htok
          cases h
          exact ⟨headers, some grant, by rw [(Option.filter_eq_some_iff.mp htok).1]⟩

/-- Some login presented an id_token and had it accepted for this email. -/
def VerifiedEmail (ls : List Event) (email : String) : Prop :=
  ∃ u headers grant idToken, .arrive u (.token headers (some ⟨grant, some idToken⟩)) ∈ ls ∧
    .call u (.verifyIdToken idToken) (.ok ⟨email⟩) ∈ ls

theorem PhaseRun.verified_presented (h : PhaseRun D S G clock ls c)
    {r : Except String OidcClaims} (hl : .call t (.verifyIdToken idToken) r ∈ ls) :
    ∃ headers grant, .arrive t (.token headers (some ⟨grant, some idToken⟩)) ∈ ls := by
  have hlogin : ∀ ls c, PhaseRun D S G clock ls c → ∀ t ph, c.threads t = some ph →
      ∀ s tok, ph = .login s tok →
        ∃ headers grant, .arrive t (.token headers (some ⟨grant, some tok⟩)) ∈ ls := by
    intro ls c h
    refine Trace.known (P := fun ls t ph => ∀ s tok, ph = Phase.login s tok →
      ∃ headers grant, .arrive t (.token headers (some ⟨grant, some tok⟩)) ∈ ls) ?_ ?_ ?_ h
    · intro ls l t ph ih s tok hph
      obtain ⟨headers, grant, hq⟩ := ih s tok hph
      exact ⟨headers, grant, log_grows _ _ hq⟩
    · intro ls c t q _ _ _ s tok hph
      obtain ⟨headers, grant, rfl⟩ := start_login hph
      exact ⟨headers, grant, List.mem_concat_self⟩
    · intro ls c t ph o k r w _ _ _ hv _ _ s tok hph
      exact absurd hph ((moves_of_view D S hv r).leaves_login s tok)
  obtain ⟨before, after, e, e', rfl, hbefore, hstep, -⟩ := h.at_label hl
  obtain ⟨ph, ph', ht, hm, -⟩ := step_call hstep.1
  obtain ⟨s, rfl⟩ := hm.verifyIdToken
  obtain ⟨headers, grant, hq⟩ := hlogin _ _ hbefore t _ ht s idToken rfl
  exact ⟨headers, grant, List.mem_append_left _ hq⟩

/-- Every email in a token that is handed out was verified by a login. -/
theorem Run.token_verified (h : Run D S (Unforged D S) clock ls c') {r : Response} {jwt : String}
    (hr : c'.response t = some r) (hne : jwt ≠ "") :
    (r.Sets S.cookieConfig.accessCookieName jwt → ∃ email, VerifiedEmail ls email ∧
      ∃ signed, jwt = S.jwt.accessToken D email signed) ∧
    (r.Sets S.cookieConfig.refreshCookieName jwt → ∃ email, VerifiedEmail ls email ∧
      ∃ id refreshed, jwt = S.jwt.refreshToken D email id refreshed) := by
  obtain ⟨d, hd, hm⟩ := Segment.phases (mirrors_initial _) h
  have hverified : ∀ {row : RefreshToken}, Stored D ls t row → VerifiedEmail ls row.email := by
    intro row hstored
    obtain ⟨u, -, ⟨idToken, hcall⟩, -⟩ := PhaseRun.origin (fun _ _ _ h => h) hd t row hstored
    obtain ⟨headers, grant, hq⟩ := PhaseRun.verified_presented hd hcall
    exact ⟨u, headers, grant, idToken, hq, hcall⟩
  rw [hm.response] at hr
  obtain ⟨ph, ht, hview⟩ := finished_iff.mp hr
  constructor
  · intro hset
    obtain ⟨o, b, ho, htokens⟩ := (sets_access hview hne).mp hset
    obtain ⟨row, signed, -, hrow, hjwt, -⟩ := tokens_row htokens
    exact ⟨row.email, hverified (PhaseRun.outcome_row hd ht ho hrow).1.stored, signed, hjwt⟩
  · intro hset
    obtain ⟨o, a, ho, htokens⟩ := (sets_refresh hview hne).mp hset
    obtain ⟨row, -, refreshed, hrow, -, hjwt⟩ := tokens_row htokens
    exact ⟨row.email, hverified (PhaseRun.outcome_row hd ht ho hrow).1.stored, row.id, refreshed,
      hjwt⟩

end Logins

section Whole
variable {W : ContractDeps} {key : BearerSealKey} {providers : List OidcProvider} {S : AppState}
  {clock boot : ℕ} {bearers : KvKey → Option Bytes} {served : OidcProvider → JwkSet}
  {lastRefresh : OidcProvider → ℕ} {ms : List WholeLabel} {d : WholeState}

/-- A login presented an id_token that vouches for the email: at the time it was checked, and
under keys that a configured provider served. -/
def VouchedFor (W : ContractDeps) (providers : List OidcProvider) (served : OidcProvider → JwkSet)
    (ms : List WholeLabel) (email : String) : Prop :=
  ∃ u headers grant idToken p jwks now,
    .arrive u (.token headers (some ⟨grant, some idToken⟩)) ∈ ms ∧ p ∈ providers ∧
    Served served ms p jwks ∧ .call u (.oidc .now) now ∈ ms ∧
    Vouches W.toDeps p jwks now idToken email

/-- A verification in the whole that succeeds vouches for its email. -/
theorem WholeRun.vouches (h : WholeRun W key providers S (Unforged W.toDeps S)
    (.booted clock bearers served lastRefresh boot) ms d) {u : ℕ} {idToken email : String}
    {before mid after : List WholeCalls.Event}
    (hcalls : callsOf u ms = before ++ (mid ++ after))
    (hran : Prog.Ran (carryWhole W key providers (.verifyIdToken idToken)) mid (.ok ⟨email⟩)) :
    ∃ p ∈ providers, ∃ jwks now, Served served ms p jwks ∧ .call u (.oidc .now) now ∈ ms ∧
      Vouches W.toDeps p jwks now idToken email := by
  obtain ⟨es, hverify, hcarried⟩ := Prog.ran_interpret.mp hran
  obtain ⟨p, hp, jwks, now, hread, hnow, hvouches⟩ := (accepted_of_ran hverify).vouches
  have hmade : ∀ {o : OidcOp} {r : o.Reply}, ⟨o, r⟩ ∈ es → .call u (.oidc o) r ∈ ms := by
    intro o r he
    refine mem_callsOf.mp ?_
    rw [hcalls]
    exact List.mem_append_right _ (List.mem_append_left _ (carried_onOidc hcarried he))
  exact ⟨p, hp, jwks, now, WholeRun.read_served h (hmade hread), hmade hnow, hvouches⟩

/-- What a login of the service has verified is vouched for in the whole. -/
theorem WholeRun.verified_vouched (h : WholeRun W key providers S (Unforged W.toDeps S)
    (.booted clock bearers served lastRefresh boot) ms d) :
    ∃ (ls : List Event) (c : ServiceState), Run W.toDeps S (Unforged W.toDeps S) clock ls c ∧
      (∀ t, c.response t = d.response t) ∧
      ∀ email, VerifiedEmail ls email → VouchedFor W providers served ms email := by
  obtain ⟨ls, c, hrun, hresponse, habove⟩ := WholeRun.service bucketOnly_unforged h
  refine ⟨ls, c, hrun, hresponse, ?_⟩
  intro email ⟨u, headers, grant, idToken, hq, hcall⟩
  obtain ⟨before, mid, after, hcalls, hran⟩ := habove.carried hcall
  obtain ⟨p, hp, jwks, now, hserved, hnow, hvouches⟩ := WholeRun.vouches h hcalls hran
  exact ⟨u, headers, grant, idToken, p, jwks, now, habove.arrived.mp hq, hp, hserved, hnow,
    hvouches⟩

/-- Behind every token stands an id_token, if clients cannot sign: a run begins with an empty
store, and they present no refresh token that they were not sent in it. Whatever the whole
service is asked then, in any order and with any fetches, failures and expiries, a token it
hands out carries an email that some login proved: with an id_token of a configured provider
that was not expired when it was checked, and was signed under a key in a set which that
provider served. -/
theorem vouched_sessions (W : ContractDeps) (key : BearerSealKey) (providers : List OidcProvider)
    (S : AppState) (clock boot : ℕ) (bearers : KvKey → Option Bytes)
    (served : OidcProvider → JwkSet) (lastRefresh : OidcProvider → ℕ) (ms : List WholeLabel)
    (d : WholeState) (h : WholeRun W key providers S (Unforged W.toDeps S)
      (.booted clock bearers served lastRefresh boot) ms d)
    (t : ℕ) (r : Response) (jwt : String) (hr : d.response t = some r) (hne : jwt ≠ "") :
    (r.Sets S.cookieConfig.accessCookieName jwt → ∃ email, VouchedFor W providers served ms email ∧
      ∃ signed, jwt = S.jwt.accessToken W.toDeps email signed) ∧
    (r.Sets S.cookieConfig.refreshCookieName jwt → ∃ email, VouchedFor W providers served ms email ∧
      ∃ id refreshed, jwt = S.jwt.refreshToken W.toDeps email id refreshed) := by
  obtain ⟨ls, c, hrun, hresponse, hvouched⟩ := WholeRun.verified_vouched h
  obtain ⟨haccess, hrefresh⟩ := Run.token_verified hrun ((hresponse t).trans hr) hne
  constructor
  · intro hset
    obtain ⟨email, hverified, hjwt⟩ := haccess hset
    exact ⟨email, hvouched email hverified, hjwt⟩
  · intro hset
    obtain ⟨email, hverified, hjwt⟩ := hrefresh hset
    exact ⟨email, hvouched email hverified, hjwt⟩

/-- The login of the sample whole is vouched for. -/
theorem vouched_sessions_sample : ∃ ms, ∃ email, VouchedFor Sample.contract [Sample.idp]
    (fun _ => ⟨[Sample.jwk]⟩) ms email ∧
    ∃ signed, Sample.state.jwt.accessToken Sample.deps "user@example.com" Sample.moment =
      Sample.state.jwt.accessToken Sample.deps email signed := by
  let served : OidcProvider → JwkSet := fun _ => ⟨[Sample.jwk]⟩
  have hserved : served Sample.idp = ⟨[Sample.jwk]⟩ := rfl
  obtain ⟨d, r, hrun, hr, hset⟩ := Sample.whole_login (fun _ => 0) hserved
  have hne := Sample.state.jwt.accessToken_ne_empty Sample.deps "user@example.com" Sample.moment
  exact ⟨_, (vouched_sessions Sample.contract Sample.sealKey [Sample.idp] Sample.state Sample.moment
    0 _ _ _ _ d hrun 0 r _ hr hne).1 hset⟩

end Whole

end SvcAuth
