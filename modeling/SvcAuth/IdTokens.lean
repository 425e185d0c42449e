import SvcAuth.OidcValidator
import SvcAuth.SampleDeployment

/-! What an accepted id_token is. A token of three segments has one reading, so the
unverified parse and the library see the same payload; the provider, the key and the email
all come from it. The audience, though, is only checked where it can be read. -/
namespace SvcAuth
open Interleave JsonWebToken

variable {D : Deps} {p : OidcProvider} {tr : List OidcCalls.Event}

section Keys

theorem readJwks_bind {α : Type} (f : JwkSet → OidcAction α) :
    readJwks p >>= f = .call (.readJwks p) f := rfl

theorem validationNow_bind {α : Type} (f : ℕ → OidcAction α) :
    validationNow >>= f = .call .now f := rfl

theorem refreshJwks_eq (p : OidcProvider) : p.refreshJwks = .call (.elapsed p) fun e : ℕ =>
    if e < p.refreshCooldown then .ret (.ok ())
    else .call (.fetchJwks p.jwksUri) fun
      | .error (.send e) => .ret (.error ("JWKS fetch failed for " ++ p.name ++ ": " ++ e))
      | .error (.json e) => .ret (.error ("JWKS parse failed for " ++ p.name ++ ": " ++ e))
      | .ok newKeys => .call (.writeJwks p newKeys) fun _ =>
        .call (.resetLastRefresh p) fun _ => .ret (.ok ()) := rfl

theorem findKey_mem {jwks : JwkSet} {kid : String} {jwk : Jwk} (h : findKey jwks kid = some jwk) :
    jwk ∈ jwks.keys :=
  List.mem_of_find?_eq_some h

theorem resolveSingleKey_mem {jwk : Jwk} (h : Prog.Ran p.resolveSingleKey tr (.ok jwk)) :
    ∃ jwks : JwkSet, ⟨.readJwks p, jwks⟩ ∈ tr ∧ jwk ∈ jwks.keys := by
  rw [OidcProvider.resolveSingleKey, readJwks_bind] at h
  obtain ⟨jwks, rest, rfl, hrest⟩ := Prog.ran_call.mp h
  refine ⟨jwks, .head _, ?_⟩
  simp only [Prog.pure_eq] at hrest
  split at hrest
  · rename_i first hkeys
    cases (Prog.ran_ret.mp hrest).2
    rw [hkeys]
    exact .head _
  · cases (Prog.ran_ret.mp hrest).2
  · cases (Prog.ran_ret.mp hrest).2

/-- The calls of a refresh and its result. -/
inductive RefreshCalls (p : OidcProvider) : List OidcCalls.Event → Except String Unit → Prop
  | early {e : ℕ} : RefreshCalls p [⟨.elapsed p, e⟩] (.ok ())
  | failed {e : ℕ} {failure : FetchError} {message : String} :
      RefreshCalls p [⟨.elapsed p, e⟩, ⟨.fetchJwks p.jwksUri, .error failure⟩] (.error message)
  | refreshed {e : ℕ} {jwks : JwkSet} :
      RefreshCalls p [⟨.elapsed p, e⟩, ⟨.fetchJwks p.jwksUri, .ok jwks⟩, ⟨.writeJwks p jwks, ()⟩,
        ⟨.resetLastRefresh p, ()⟩] (.ok ())

theorem refreshJwks_calls {r : Except String Unit} (h : Prog.Ran p.refreshJwks tr r) :
    RefreshCalls p tr r := by
  rw [refreshJwks_eq] at h
  obtain ⟨e, rest, rfl, h₁⟩ := Prog.ran_call.mp h
  split at h₁
  · obtain ⟨rfl, rfl⟩ := Prog.ran_ret.mp h₁
    exact .early
  · obtain ⟨answer, rest, rfl, h₂⟩ := Prog.ran_call.mp h₁
    rcases answer with (failure | failure) | jwks
    · obtain ⟨rfl, rfl⟩ := Prog.ran_ret.mp h₂
      exact .failed
    · obtain ⟨rfl, rfl⟩ := Prog.ran_ret.mp h₂
      exact .failed
    · obtain ⟨_, rest, rfl, h₃⟩ := Prog.ran_call.mp h₂
      obtain ⟨_, rest, rfl, h₄⟩ := Prog.ran_call.mp h₃
      obtain ⟨rfl, rfl⟩ := Prog.ran_ret.mp h₄
      exact .refreshed

/-- The calls of a request for a key and its result. -/
inductive ResolveCalls (p : OidcProvider) (kid : String) :
    List OidcCalls.Event → Except String Jwk → Prop
  | cached {old : JwkSet} {jwk : Jwk} (found : findKey old kid = some jwk) :
      ResolveCalls p kid [⟨.readJwks p, old⟩] (.ok jwk)
  | failed {old : JwkSet} {calls : List OidcCalls.Event} {message : String}
      (refresh : RefreshCalls p calls (.error message)) :
      ResolveCalls p kid (⟨.readJwks p, old⟩ :: calls) (.error message)
  | found {old now : JwkSet} {calls : List OidcCalls.Event} {jwk : Jwk}
      (refresh : RefreshCalls p calls (.ok ())) (found : findKey now kid = some jwk) :
      ResolveCalls p kid (⟨.readJwks p, old⟩ :: (calls ++ [⟨.readJwks p, now⟩])) (.ok jwk)
  | absent {old now : JwkSet} {calls : List OidcCalls.Event} {message : String}
      (refresh : RefreshCalls p calls (.ok ())) (absent : findKey now kid = none) :
      ResolveCalls p kid (⟨.readJwks p, old⟩ :: (calls ++ [⟨.readJwks p, now⟩])) (.error message)

theorem resolveKey_calls {kid : String} {r : Except String Jwk}
    (h : Prog.Ran (p.resolveKey kid) tr r) : ResolveCalls p kid tr r := by
  rw [OidcProvider.resolveKey, readJwks_bind] at h
  obtain ⟨old, rest, rfl, h₁⟩ := Prog.ran_call.mp h
  split at h₁
  · rename_i jwk hfound
    obtain ⟨rfl, rfl⟩ := Prog.ran_ret.mp h₁
    exact .cached hfound
  · obtain ⟨refreshed, calls, t₂, rfl, hrefresh, h₂⟩ := Prog.ran_bind.mp h₁
    cases refreshed with
    | error message =>
      obtain ⟨rfl, rfl⟩ := Prog.ran_ret.mp h₂
      rw [List.append_nil]
      exact .failed (refreshJwks_calls hrefresh)
    | ok u =>
      simp only [readJwks_bind] at h₂
      obtain ⟨now, rest, rfl, h₃⟩ := Prog.ran_call.mp h₂
      split at h₃
      · rename_i jwk hfound
        obtain ⟨rfl, rfl⟩ := Prog.ran_ret.mp h₃
        exact .found (refreshJwks_calls hrefresh) hfound
      · rename_i habsent
        obtain ⟨rfl, rfl⟩ := Prog.ran_ret.mp h₃
        exact .absent (refreshJwks_calls hrefresh) habsent

theorem resolveKey_mem {kid : String} {jwk : Jwk} (h : Prog.Ran (p.resolveKey kid) tr (.ok jwk)) :
    ∃ jwks : JwkSet, ⟨.readJwks p, jwks⟩ ∈ tr ∧ jwk ∈ jwks.keys := by
  cases resolveKey_calls h with
  | cached hfound => exact ⟨_, .head _, findKey_mem hfound⟩
  | found _ hfound => exact ⟨_, by simp, findKey_mem hfound⟩

theorem resolve_mem {kid : Option String} {jwk : Jwk} (h : Prog.Ran (p.resolve kid) tr (.ok jwk)) :
    ∃ jwks : JwkSet, ⟨.readJwks p, jwks⟩ ∈ tr ∧ jwk ∈ jwks.keys := by
  cases kid with
  | none => exact resolveSingleKey_mem h
  | some kid => exact resolveKey_mem h

end Keys

section Acceptance

/-- The provider a payload is routed to: the first configured one with its issuer. -/
def selectProvider (providers : List OidcProvider) (payload : Payload) : Option OidcProvider :=
  payload.getStr "iss" >>= fun issuer => providers.find? fun p => p.issuer = issuer

theorem selectProvider_some {providers : List OidcProvider} {payload : Payload}
    (h : selectProvider providers payload = some p) :
    p ∈ providers ∧ payload.getStr "iss" = some p.issuer := by
  obtain ⟨issuer, hiss, hfind⟩ := Option.bind_eq_some_iff.mp h
  have hmatch := List.find?_some hfind
  rw [decide_eq_true_eq] at hmatch
  exact ⟨List.mem_of_find?_eq_some hfind, hmatch ▸ hiss⟩

/-- The verdict on a token under a resolved key, at clock reading `now`. -/
def keyVerdict (D : Deps) (p : OidcProvider) (payload : Payload) (header : Header)
    (idToken : String) (jwk : Jwk) (now : ℕ) : Except String OidcClaims :=
  match D.decodingKeyFromJwk jwk with
  | .error e => .error ("invalid JWK for kid " ++ jwk.keyId.getD "unknown" ++ ": " ++ e)
  | .ok key =>
    match D.decode some idToken key (p.validation (verificationAlgorithm jwk header)) now with
    | .error e => .error ("id_token verification failed for " ++ p.name ++ ": " ++
        D.errorKindToString e)
    | .ok _ =>
      match extractEmailFromPayload payload p.emailClaim with
      | .error e => .error e
      | .ok email => .ok ⟨email⟩

/-- The second half of a verification, behind the resolution of the key. A key that does not
read needs no clock. -/
def judge (D : Deps) (p : OidcProvider) (payload : Payload) (header : Header) (idToken : String) :
    Except String Jwk → OidcAction (Except String OidcClaims)
  | .error e => .ret (.error e)
  | .ok jwk =>
    match D.decodingKeyFromJwk jwk with
    | .error _ => .ret (keyVerdict D p payload header idToken jwk 0)
    | .ok _ => .call .now fun now => .ret (keyVerdict D p payload header idToken jwk now)

/-- A token that parses and names an issuer is verified in two halves. -/
theorem verifyIdToken_eq {providers : List OidcProvider} {idToken : String} {payload : Payload}
    {header : Header} (hparsed : decodeJwtPayloadUnverified D idToken = .ok payload)
    (hselected : selectProvider providers payload = some p)
    (hheaded : D.decodeHeader idToken = .ok header) :
    verifyIdToken D providers idToken = p.resolve header.kid >>= judge D p payload header idToken := by
  obtain ⟨issuer, hissuer, hfind⟩ := Option.bind_eq_some_iff.mp hselected
  simp only [verifyIdToken, hparsed, hissuer, hfind, hheaded]
  refine congrArg _ (funext fun r => ?_)
  rcases r with e | jwk
  · rfl
  · simp only [judge, keyVerdict]
    rcases D.decodingKeyFromJwk jwk with e | key
    · rfl
    · simp only [validationNow_bind]
      refine congrArg (Prog.call (S := OidcCalls) .now) (funext fun now => ?_)
      rcases D.decode some idToken key (p.validation (verificationAlgorithm jwk header)) now with
        e | decoded
      · rfl
      · simp only
        rcases extractEmailFromPayload payload p.emailClaim with e | email <;> rfl

/-- Any other token is refused before a key is looked for. -/
theorem verifyIdToken_refused {providers : List OidcProvider} {idToken : String}
    (h : ∀ payload header p, decodeJwtPayloadUnverified D idToken = .ok payload →
      D.decodeHeader idToken = .ok header → selectProvider providers payload ≠ some p) :
    ∃ e, verifyIdToken D providers idToken = .ret (.error e) := by
  unfold verifyIdToken
  split
  · exact ⟨_, rfl⟩
  · rename_i payload hparsed
    split
    · exact ⟨_, rfl⟩
    · rename_i issuer hissuer
      split
      · exact ⟨_, rfl⟩
      · rename_i provider hprovider
        split
        · exact ⟨_, rfl⟩
        · rename_i header hheaded
          refine absurd ?_ (h payload header provider hparsed hheaded)
          rw [selectProvider, hissuer]
          exact hprovider

theorem verifyIdToken_cases (D : Deps) (providers : List OidcProvider) (idToken : String) :
    (∃ payload header p, decodeJwtPayloadUnverified D idToken = .ok payload ∧
      D.decodeHeader idToken = .ok header ∧ selectProvider providers payload = some p ∧
      verifyIdToken D providers idToken =
        p.resolve header.kid >>= judge D p payload header idToken) ∨
    ∃ e, verifyIdToken D providers idToken = .ret (.error e) := by
  by_cases hrouted : ∃ payload header p, decodeJwtPayloadUnverified D idToken = .ok payload ∧
      D.decodeHeader idToken = .ok header ∧ selectProvider providers payload = some p
  · obtain ⟨payload, header, p, hparsed, hheaded, hselected⟩ := hrouted
    exact .inl ⟨payload, header, p, hparsed, hheaded, hselected,
      verifyIdToken_eq hparsed hselected hheaded⟩
  · exact .inr (verifyIdToken_refused fun payload header p hparsed hheaded hselected =>
      hrouted ⟨payload, header, p, hparsed, hheaded, hselected⟩)

theorem keyVerdict_ok {payload : Payload} {header : Header} {idToken : String} {jwk : Jwk}
    {now : ℕ} {claims : OidcClaims} :
    keyVerdict D p payload header idToken jwk now = .ok claims ↔ ∃ key decoded,
      D.decodingKeyFromJwk jwk = .ok key ∧
      D.decode some idToken key (p.validation (verificationAlgorithm jwk header)) now =
        .ok decoded ∧ extractEmailFromPayload payload p.emailClaim = .ok claims.email := by
  unfold keyVerdict
  rcases D.decodingKeyFromJwk jwk with e | key
  · simp
  · rcases hdecode : D.decode some idToken key
      (p.validation (verificationAlgorithm jwk header)) now with e | decoded
    · simp [hdecode]
    · rcases extractEmailFromPayload payload p.emailClaim with e | email
      · simp [hdecode]
      · cases claims
        simp [hdecode]

/-- What `verifyIdToken` found on its way to accepting a token. -/
inductive Accepted (D : Deps) (providers : List OidcProvider) (idToken : String)
    (tr : List OidcCalls.Event) (claims : OidcClaims) : Prop
  | mk (payload : Payload) (provider : OidcProvider) (header : Header) (jwks : JwkSet) (jwk : Jwk)
      (key : DecodingKey) (now : ℕ) (decoded : Payload)
      (parsed : decodeJwtPayloadUnverified D idToken = .ok payload)
      (selected : selectProvider providers payload = some provider)
      (headed : D.decodeHeader idToken = .ok header)
      (cached : ⟨.readJwks provider, jwks⟩ ∈ tr)
      (picked : jwk ∈ jwks.keys)
      (keyed : D.decodingKeyFromJwk jwk = .ok key)
      (timed : ⟨.now, now⟩ ∈ tr)
      (verified : D.decode some idToken key
        (provider.validation (verificationAlgorithm jwk header)) now = .ok decoded)
      (mailed : extractEmailFromPayload payload provider.emailClaim = .ok claims.email)

/-- An accepted token was routed to a provider, a key was resolved there, and the verdict
under that key accepts. -/
theorem verifyIdToken_ok {providers : List OidcProvider} {idToken : String} {claims : OidcClaims}
    (h : Prog.Ran (verifyIdToken D providers idToken) tr (.ok claims)) :
    ∃ payload provider header jwk t₁ now, decodeJwtPayloadUnverified D idToken = .ok payload ∧
      selectProvider providers payload = some provider ∧ D.decodeHeader idToken = .ok header ∧
      Prog.Ran (provider.resolve header.kid) t₁ (.ok jwk) ∧ tr = t₁ ++ [⟨.now, now⟩] ∧
      keyVerdict D provider payload header idToken jwk now = .ok claims := by
  rcases verifyIdToken_cases D providers idToken with
    ⟨payload, header, provider, hparsed, hheaded, hselected, hrouted⟩ | ⟨e, hrefused⟩
  · rw [hrouted] at h
    obtain ⟨r, t₁, t₂, rfl, hresolve, hrest⟩ := Prog.ran_bind.mp h
    cases r with
    | error e => cases (Prog.ran_ret.mp hrest).2
    | ok jwk =>
      simp only [judge] at hrest
      split at hrest
      · rename_i e hkey
        have hverdict := (Prog.ran_ret.mp hrest).2
        simp [keyVerdict, hkey] at hverdict
      · obtain ⟨now, rest, rfl, hlast⟩ := Prog.ran_call.mp hrest
        obtain ⟨rfl, hverdict⟩ := Prog.ran_ret.mp hlast
        exact ⟨payload, provider, header, jwk, t₁, now, hparsed, hselected, hheaded, hresolve, rfl,
          hverdict.symm⟩
  · rw [hrefused] at h
    cases (Prog.ran_ret.mp h).2

theorem accepted_of_ran {providers : List OidcProvider} {idToken : String} {claims : OidcClaims}
    (h : Prog.Ran (verifyIdToken D providers idToken) tr (.ok claims)) :
    Accepted D providers idToken tr claims := by
  obtain ⟨payload, provider, header, jwk, t₁, now, hparsed, hselected, hheaded, hresolve, rfl,
    hverdict⟩ := verifyIdToken_ok h
  obtain ⟨jwks, hcached, hpicked⟩ := resolve_mem hresolve
  obtain ⟨key, decoded, hkey, hdecode, hemail⟩ := keyVerdict_ok.mp hverdict
  exact .mk payload provider header jwks jwk key now decoded hparsed hselected hheaded
    (by simp [hcached]) hpicked hkey (by simp) hdecode hemail

theorem decodeJwtPayloadUnverified_ok {token : String} {payload : Payload}
    (h : decodeJwtPayloadUnverified D token = .ok payload) :
    ∃ head body signature bytes, token = compact head body signature ∧ '.' ∉ body.toList ∧
      '.' ∉ signature.toList ∧ D.b64Decode body = some bytes ∧ D.fromJson bytes = some payload := by
  unfold decodeJwtPayloadUnverified at h
  split at h
  · rename_i head body signature hsplit
    obtain ⟨htoken, hb, hs⟩ := splitDots_eq_three hsplit
    split at h
    · cases h
    · rename_i bytes hbytes
      split at h
      · cases h
      · rename_i ms hms
        cases h
        exact ⟨head, body, signature, bytes, htoken, hb, hs, hbytes, hms⟩
  · cases h

/-- The fallback to `email` is for a claim that is absent or no string, not for an empty one. -/
theorem extractEmailFromPayload_ok {payload : Payload} {emailClaim email : String}
    (h : extractEmailFromPayload payload emailClaim = .ok email) : email ≠ "" ∧
      (payload.getStr emailClaim = some email ∨
        payload.getStr emailClaim = none ∧ payload.getStr "email" = some email) := by
  unfold extractEmailFromPayload at h
  simp only at h
  split at h
  · cases h
  · rename_i hne
    have hemail := Except.ok.inj h
    have hnonempty : email ≠ "" := by
      rintro rfl
      exact hne (by rw [hemail]; rfl)
    refine ⟨hnonempty, ?_⟩
    cases hclaim : payload.getStr emailClaim with
    | some value =>
      rw [hclaim, Option.some_or, Option.getD_some] at hemail
      exact .inl (by rw [hemail])
    | none =>
      rw [hclaim, Option.none_or] at hemail
      cases hfallback : payload.getStr "email" with
      | some value =>
        rw [hfallback, Option.getD_some] at hemail
        exact .inr ⟨rfl, by rw [hemail]⟩
      | none =>
        rw [hfallback, Option.getD_none] at hemail
        exact absurd hemail.symm hnonempty

/-- The library validated the claims of the payload that was parsed unverified. -/
theorem decode_same_payload {token : String} {payload decoded : Payload} {key : DecodingKey}
    {v : Validation} {now : ℕ} (hparsed : decodeJwtPayloadUnverified D token = .ok payload)
    (h : D.decode some token key v now = .ok decoded) :
    ∃ head body signature bytes header c, token = compact head body signature ∧
      D.b64Decode body = some bytes ∧ D.fromJson bytes = some payload ∧
      D.decodeHeader token = .ok header ∧ header.alg ∈ v.algorithms ∧
      (∀ alg ∈ v.algorithms, key.family = alg.family) ∧
      D.cryptoVerify signature (head ++ "." ++ body) key header.alg = true ∧
      claimsForValidation payload = some c ∧ validate c v now = .ok () := by
  obtain ⟨head, body, signature, bytes, rfl, hb, hs, hbytes, hjson⟩ :=
    decodeJwtPayloadUnverified_ok hparsed
  obtain ⟨header, payload', bytes', ms, c, hsig, hbytes', hjson', -, hc, hvalid⟩ :=
    Library.decode_ok h
  obtain ⟨rfl, hheader, halg, hfamily, hverify⟩ := verifySignature_compact hb hs hsig
  rw [hbytes] at hbytes'
  cases hbytes'
  rw [hjson] at hjson'
  cases hjson'
  exact ⟨head, payload', signature, bytes, header, c, rfl, hbytes, hjson,
    D.decodeHeader_ok.mpr hheader, halg, hfamily, hverify, hc, hvalid⟩

theorem signedToken_parsed (header : Header) {ms : List (String × Json)}
    (hms : ∀ m ∈ ms, m.2.Scalar) (secret : String) :
    decodeJwtPayloadUnverified D (D.signedToken header ms secret) = .ok ms := by
  rw [decodeJwtPayloadUnverified, Codecs.signedToken, splitDots_compact (D.b64Encode_dotless _)
    (D.b64Encode_dotless _) (D.cryptoSign_dotless _ _ _)]
  simp [D.b64Decode_encode, D.fromJson_toJson ms hms]

/-- An id_token signed under the one, symmetric key of its provider is accepted if its
claims validate and carry an email. -/
theorem hmacToken_accepted {jwk : Jwk} {secret email : String} {ms : List (String × Json)}
    {c : ClaimsForValidation} {now : ℕ} (hkey : D.decodingKeyFromJwk jwk = .ok (.fromSecret secret))
    (halg : verificationAlgorithm jwk .default = .HS256) (hms : ∀ m ∈ ms, m.2.Scalar)
    (hiss : Payload.getStr ms "iss" = some p.issuer) (hc : claimsForValidation ms = some c)
    (hvalid : validate c (p.validation .HS256) now = .ok ())
    (hemail : extractEmailFromPayload ms p.emailClaim = .ok email) :
    decodeJwtPayloadUnverified D (D.hmacToken ms secret) = .ok ms ∧
      Prog.Ran (verifyIdToken D [p] (D.hmacToken ms secret))
        [⟨.readJwks p, ⟨[jwk]⟩⟩, ⟨.now, now⟩] (.ok ⟨email⟩) := by
  have hparsed : decodeJwtPayloadUnverified D (D.hmacToken ms secret) = .ok ms :=
    signedToken_parsed _ hms secret
  have hdecode : D.decode some (D.hmacToken ms secret) (.fromSecret secret)
      (p.validation .HS256) now = .ok ms := by
    rw [D.decode_hmacToken some hms secret rfl, claimsVerdict]
    simp [hc, hvalid]
  refine ⟨hparsed, ?_⟩
  have hresolve : Prog.Ran (p.resolve Header.default.kid) [⟨.readJwks p, ⟨[jwk]⟩⟩] (.ok jwk) :=
    .call (.ret _)
  simp only [verifyIdToken, hparsed, hiss, List.find?_cons_of_pos, decide_true,
    Library.decodeHeader_hmacToken]
  refine Prog.ran_bind.mpr ⟨_, _, [⟨.now, now⟩], rfl, hresolve, ?_⟩
  simp only [hkey, halg, validationNow_bind, hemail]
  refine .call ?_
  rw [hdecode]
  exact .ret _

end Acceptance

section Routing

theorem exp_of_validate {c : ClaimsForValidation} {alg : Algorithm} {now : ℕ}
    (h : validate c (p.validation alg) now = .ok ()) :
    ∃ exp, c.exp = .parsed exp ∧ now ≤ exp + 60 := by
  obtain ⟨hmissing, hexpired, -, -⟩ := validate_ok h
  have hpresent : present c "exp" = true := by
    have hall := List.find?_eq_none.mp hmissing "exp" (.head _)
    simpa using hall
  cases hexp : c.exp with
  | parsed exp =>
    refine ⟨exp, rfl, ?_⟩
    unfold expired at hexpired
    rw [hexp] at hexpired
    have hnot := of_decide_eq_false hexpired
    simp only [OidcProvider.validation, Validation.setAudience, Validation.setIssuer,
      Validation.new] at hnot
    have hleeway := le_leewayStart 60 now
    omega
  | failedToParse => simp [present, hexp, TryParse.Present] at hpresent
  | notPresent => simp [present, hexp, TryParse.Present] at hpresent

/-- Routing on the unverified issuer is safe. Whatever the caches hold and a refresh
fetches, an accepted token names the issuer of a configured provider and is signed, over
this very header and payload, under a key of that provider with an algorithm of the key's
family; it has not expired, and the email is read from the signed payload. -/
theorem id_token_routed (D : Deps) (providers : List OidcProvider) (idToken : String)
    (tr : List OidcCalls.Event) (claims : OidcClaims)
    (h : Prog.Ran (verifyIdToken D providers idToken) tr (.ok claims)) :
    ∃ (head body signature : String) (bytes : Bytes) (payload : Payload),
      idToken = compact head body signature ∧ D.b64Decode body = some bytes ∧
      D.fromJson bytes = some payload ∧
      ∃ provider ∈ providers, payload.getStr "iss" = some provider.issuer ∧
        (∃ (jwks : JwkSet) (jwk : Jwk) (key : DecodingKey) (header : Header),
          ⟨.readJwks provider, jwks⟩ ∈ tr ∧ jwk ∈ jwks.keys ∧
          D.decodingKeyFromJwk jwk = .ok key ∧ D.decodeHeader idToken = .ok header ∧
          key.family = header.alg.family ∧
          D.cryptoVerify signature (head ++ "." ++ body) key header.alg = true) ∧
        (∃ exp now, numericType (lookup payload "exp") = .parsed exp ∧ ⟨.now, now⟩ ∈ tr ∧
          now ≤ exp + 60) ∧
        claims.email ≠ "" ∧
        (payload.getStr provider.emailClaim = some claims.email ∨
          payload.getStr provider.emailClaim = none ∧
            payload.getStr "email" = some claims.email) := by
  obtain ⟨payload, provider, header, jwks, jwk, key, now, decoded, hparsed, hselected, hheader,
    hcached, hpicked, hkey, hnow, hdecode, hemail⟩ := accepted_of_ran h
  obtain ⟨hmem, hiss⟩ := selectProvider_some hselected
  obtain ⟨head, body, signature, bytes, header', c, rfl, hbytes, hjson, hheader', halg, hfamily,
    hverify, hc, hvalid⟩ := decode_same_payload hparsed hdecode
  obtain ⟨exp, hexp, hfresh⟩ := exp_of_validate hvalid
  refine ⟨head, body, signature, bytes, payload, rfl, hbytes, hjson, provider, hmem, hiss,
    ⟨jwks, jwk, key, header', hcached, hpicked, hkey, hheader', hfamily _ halg, hverify⟩,
    ⟨exp, now, ?_, hnow, hfresh⟩, extractEmailFromPayload_ok hemail⟩
  rw [← (claimsForValidation_fields hc).1, hexp]

/-- An id_token of the sample provider. -/
def sampleToken (aud : Option String) : String :=
  Sample.deps.hmacToken (Sample.idClaims aud) "key"

/-- What the validator does with it. -/
def sampleCalls : List OidcCalls.Event :=
  [⟨.readJwks Sample.provider, ⟨[Sample.jwk]⟩⟩, ⟨.now, Sample.moment⟩]

/-- The sample provider accepts tokens for its client, and tokens for nobody. -/
theorem sample_accepted (aud : Option String) (haud : ∀ a ∈ aud, a = "client") :
    decodeJwtPayloadUnverified Sample.deps (sampleToken aud) = .ok (Sample.idClaims aud) ∧
      Prog.Ran (verifyIdToken Sample.deps [Sample.provider] (sampleToken aud)) sampleCalls
        (.ok ⟨"user@example.com"⟩) := by
  have hms : ∀ m ∈ Sample.idClaims aud, m.2.Scalar := by
    cases aud <;> simp [Sample.idClaims, Json.Scalar]
  cases aud with
  | none =>
    exact hmacToken_accepted Sample.decodingKeyFromJwk_jwk rfl hms (by decide) rfl (by decide)
      (by decide)
  | some a =>
    cases haud a rfl
    exact hmacToken_accepted Sample.decodingKeyFromJwk_jwk rfl hms (by decide) rfl (by decide)
      (by decide)

/-- The token for the client is routed to the sample provider and accepted under its key. -/
theorem id_token_routed_sample : ∃ (head body signature : String) (bytes : Bytes)
    (payload : Payload), sampleToken (some "client") = compact head body signature ∧
      Sample.deps.b64Decode body = some bytes ∧ Sample.deps.fromJson bytes = some payload ∧
      ∃ provider ∈ [Sample.provider], payload.getStr "iss" = some provider.issuer ∧
        ∃ exp now, numericType (lookup payload "exp") = .parsed exp ∧
          ⟨.now, now⟩ ∈ sampleCalls ∧ now ≤ exp + 60 := by
  obtain ⟨head, body, signature, bytes, payload, htoken, hbytes, hjson, provider, hmem, hiss, -,
    hexp, -⟩ := id_token_routed _ _ _ _ _ (sample_accepted (some "client") (by simp)).2
  exact ⟨head, body, signature, bytes, payload, htoken, hbytes, hjson, provider, hmem, hiss, hexp⟩

end Routing

section Audience

/-- The payload carries an audience that is this client or an array with it. -/
def AudienceNames (payload : Payload) (clientId : String) : Prop :=
  ∃ aud, lookup payload "aud" = some aud ∧
    (aud = .str clientId ∨ ∃ items, aud = .arr items ∧ .str clientId ∈ items)

/-- The audience is one the library can read, a string or an array of strings, or an array
that has other items and the client among them. -/
def AudienceReads (payload : Payload) (clientId : String) : Prop :=
  ∃ aud, lookup payload "aud" = some aud ∧
    ((stringOrStrings aud).isSome ∨ ∃ items, aud = .arr items ∧ .str clientId ∈ items)

theorem str_mem_of_mapM {items : List Json} {given : List String}
    (h : items.mapM Json.asStr = some given) {s : String} (hs : s ∈ given) : .str s ∈ items := by
  induction items generalizing given with
  | nil =>
    rw [List.mapM_nil] at h
    cases h
    cases hs
  | cons item items ih =>
    rw [List.mapM_cons] at h
    obtain ⟨first, hfirst, htail⟩ := Option.bind_eq_some_iff.mp h
    obtain ⟨rest, hrest, heq⟩ := Option.bind_eq_some_iff.mp htail
    cases heq
    rcases List.mem_cons.mp hs with rfl | hs
    · cases item with
      | str value =>
        cases hfirst
        exact .head _
      | _ => cases hfirst
    · exact .tail _ (ih hrest hs)

/-- An audience that was read and not refused names the client. -/
theorem audience_of_read {c : ClaimsForValidation} {alg : Algorithm} {now : ℕ} {aud : Json}
    {given : List String} (h : validate c (p.validation alg) now = .ok ())
    (haud : c.aud = tryParse stringOrStrings (some aud)) (hread : stringOrStrings aud = some given) :
    aud = .str p.clientId ∨ ∃ items, aud = .arr items ∧ .str p.clientId ∈ items := by
  obtain ⟨-, -, -, hrefused⟩ := validate_ok h
  have hparsed : c.aud = .parsed given := by
    rw [haud]
    cases aud <;> simp_all [tryParse, stringOrStrings]
  have hnamed : p.clientId ∈ given := by
    unfold audienceRefused at hrefused
    rw [hparsed] at hrefused
    simpa [OidcProvider.validation, Validation.setAudience] using hrefused
  cases aud with
  | str s =>
    cases hread
    rw [List.mem_singleton] at hnamed
    exact .inl (by rw [hnamed])
  | arr items => exact .inr ⟨items, rfl, str_mem_of_mapM hread hnamed⟩
  | _ => cases hread

/-- An accepted token names the client of its provider exactly if its audience is there
and can be read, or is a mixed array with the client in it. -/
theorem audience_named_iff (D : Deps) (providers : List OidcProvider) (idToken : String)
    (tr : List OidcCalls.Event) (claims : OidcClaims)
    (h : Prog.Ran (verifyIdToken D providers idToken) tr (.ok claims)) (payload : Payload)
    (provider : OidcProvider) (hparsed : decodeJwtPayloadUnverified D idToken = .ok payload)
    (hselected : selectProvider providers payload = some provider) :
    AudienceNames payload provider.clientId ↔ AudienceReads payload provider.clientId := by
  constructor
  · rintro ⟨aud, haud, rfl | hmixed⟩
    · exact ⟨_, haud, .inl rfl⟩
    · exact ⟨aud, haud, .inr hmixed⟩
  · rintro ⟨aud, haud, hread | hmixed⟩
    · obtain ⟨given, hgiven⟩ := Option.isSome_iff_exists.mp hread
      obtain ⟨payload', provider', header, jwks, jwk, key, now, decoded, hparsed', hselected', -, -,
        -, -, -, hdecode, -⟩ := accepted_of_ran h
      rw [hparsed] at hparsed'
      cases hparsed'
      rw [hselected] at hselected'
      cases hselected'
      obtain ⟨-, -, -, -, -, c, -, -, -, -, -, -, -, hc, hvalid⟩ :=
        decode_same_payload hparsed hdecode
      have hfield := (claimsForValidation_fields hc).2
      rw [haud] at hfield
      exact ⟨aud, haud, audience_of_read hvalid hfield hgiven⟩
    · exact ⟨aud, haud, .inr hmixed⟩

/-- The token for the client names it, and its audience reads. -/
theorem audience_named_sample :
    AudienceNames (Sample.idClaims (some "client")) Sample.provider.clientId ∧
      (AudienceNames (Sample.idClaims (some "client")) Sample.provider.clientId ↔
        AudienceReads (Sample.idClaims (some "client")) Sample.provider.clientId) := by
  have hsample := sample_accepted (some "client") (by simp)
  have hiff := audience_named_iff _ _ _ _ _ hsample.2 _ Sample.provider hsample.1 (by decide)
  exact ⟨⟨.str "client", rfl, .inl rfl⟩, hiff⟩

/-- A token without an audience is accepted. -/
theorem audience_skipped : ¬ ∀ tr claims payload provider,
    Prog.Ran (verifyIdToken Sample.deps [Sample.provider] (sampleToken none)) tr (.ok claims) →
    decodeJwtPayloadUnverified Sample.deps (sampleToken none) = .ok payload →
    selectProvider [Sample.provider] payload = some provider →
    AudienceNames payload provider.clientId := by
  intro hclaim
  have hsample := sample_accepted none (by simp)
  obtain ⟨aud, haud, -⟩ := hclaim _ _ _ Sample.provider hsample.2 hsample.1 (by decide)
  cases haud

end Audience

end SvcAuth
