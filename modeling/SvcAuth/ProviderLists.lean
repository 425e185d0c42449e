import SvcAuth.KeyResolution
import Mathlib.Data.List.Perm.Basic

/-! Several configured providers. A token is routed by its issuer alone, so providers keep
out of each other's way as long as the issuer of the token belongs to one of them. Where
two share it, the first of the list is asked, whatever the other would have said. -/
namespace SvcAuth
open Interleave JsonWebToken

/-- Other providers change nothing for this token: what is accepted under one provider
alone is accepted under all of them, and their order does not matter. -/
def KeepsApart (D : Deps) (providers : List OidcProvider) (idToken : String) : Prop :=
  ∀ w : OidcWorld,
    (∀ p ∈ providers, ∀ claims, w.verified D [p] idToken = .ok claims →
      w.verified D providers idToken = .ok claims) ∧
    ∀ qs, qs.Perm providers → w.verified D qs idToken = w.verified D providers idToken

/-- The token reads and names this provider as its issuer. -/
structure Names (D : Deps) (idToken : String) (p : OidcProvider) : Prop where
  payload : ∃ payload, decodeJwtPayloadUnverified D idToken = .ok payload ∧
    payload.getStr "iss" = some p.issuer
  header : ∃ header, D.decodeHeader idToken = .ok header

section Routing
variable {D : Deps} {ps qs : List OidcProvider} {idToken : String} {payload : Payload}
  {p q : OidcProvider}

theorem selectProvider_mem (hp : p ∈ ps) (hiss : payload.getStr "iss" = some p.issuer) :
    ∃ q, selectProvider ps payload = some q := by
  rw [selectProvider, hiss, Option.bind_eq_bind, Option.bind_some]
  cases hfind : ps.find? fun r => r.issuer = p.issuer with
  | some q => exact ⟨q, rfl⟩
  | none =>
    have hmiss := List.find?_eq_none.mp hfind p hp
    simp at hmiss

theorem verifyIdToken_congr (h : ∀ payload, decodeJwtPayloadUnverified D idToken = .ok payload →
    selectProvider ps payload = selectProvider qs payload) :
    verifyIdToken D ps idToken = verifyIdToken D qs idToken := by
  unfold verifyIdToken
  cases hparsed : decodeJwtPayloadUnverified D idToken with
  | error e => rfl
  | ok payload =>
    have hselect := h payload hparsed
    simp only
    cases hiss : payload.getStr "iss" with
    | none => rfl
    | some issuer =>
      rw [selectProvider, selectProvider, hiss] at hselect
      simp only [Option.bind_eq_bind, Option.bind_some] at hselect
      simp only [hselect]

theorem verifyIdToken_headless {e : ErrorKind} (hheader : D.decodeHeader idToken = .error e)
    (hperm : qs.Perm ps) : verifyIdToken D qs idToken = verifyIdToken D ps idToken := by
  unfold verifyIdToken
  cases decodeJwtPayloadUnverified D idToken with
  | error e => rfl
  | ok payload =>
    simp only
    cases payload.getStr "iss" with
    | none => rfl
    | some issuer =>
      have hsome : (qs.find? fun p => p.issuer = issuer).isSome =
          (ps.find? fun p => p.issuer = issuer).isSome := by
        rw [Bool.eq_iff_iff, List.find?_isSome, List.find?_isSome]
        simp only [hperm.mem_iff]
      simp only [hheader]
      rcases hq : (qs.find? fun p => p.issuer = issuer) with _ | q <;>
        rcases hp : (ps.find? fun p => p.issuer = issuer) with _ | p <;> simp [hq, hp] at hsome ⊢

/-- If one provider only has the issuer of the token, it is the one that is selected. -/
theorem selectProvider_unique (honly : ∀ p ∈ ps, ∀ q ∈ ps, Names D idToken p →
    Names D idToken q → p = q) (hparsed : decodeJwtPayloadUnverified D idToken = .ok payload)
    {header : Header} (hheaded : D.decodeHeader idToken = .ok header) (hp : p ∈ ps)
    (hiss : payload.getStr "iss" = some p.issuer) : selectProvider ps payload = some p := by
  obtain ⟨q, hselected⟩ := selectProvider_mem hp hiss
  obtain ⟨hq, hissq⟩ := selectProvider_some hselected
  rw [hselected, honly q hq p hp ⟨⟨payload, hparsed, hissq⟩, ⟨header, hheaded⟩⟩
    ⟨⟨payload, hparsed, hiss⟩, ⟨header, hheaded⟩⟩]

theorem OidcWorld.verified_one {w : OidcWorld} {claims : OidcClaims}
    (h : w.verified D [p] idToken = .ok claims) : Names D idToken p := by
  by_contra hnot
  obtain ⟨e, hrefused⟩ : ∃ e, verifyIdToken D [p] idToken = .ret (.error e) :=
    verifyIdToken_refused fun payload header q hparsed hheaded hselected => by
      obtain ⟨hmem, hiss⟩ := selectProvider_some hselected
      cases List.mem_singleton.mp hmem
      exact hnot ⟨⟨payload, hparsed, hiss⟩, ⟨header, hheaded⟩⟩
  rw [OidcWorld.verified, hrefused] at h
  cases h

end Routing

section Contest
variable {D : Deps} {providers : List OidcProvider} {idToken : String} {p q : OidcProvider}

/-- A world in which only `q` has a key for tokens with this `kid`, and a refresh of any
other provider finds none. -/
def contest (p q : OidcProvider) (kid : Option String) : OidcWorld where
  jwks r := if r = q then ⟨[⟨kid, none, ""⟩]⟩ else ⟨[]⟩
  lastRefresh _ := 0
  clock := p.refreshCooldown
  seconds := Sample.moment
  published _ := .ok ⟨[]⟩

/-- How the errors of an unresolved key begin. -/
def resolutionError (e : String) : Prop := e.toList.head? = some 'J' ∨ e.toList.head? = some 'k'

theorem keyVerdict_error {payload : Payload} {header : Header} {jwk : Jwk} {now : ℕ} {e : String}
    (h : keyVerdict D p payload header idToken jwk now = .error e) : ¬ resolutionError e := by
  unfold keyVerdict at h
  split at h
  · cases h
    simp [resolutionError]
  · split at h
    · cases h
      simp [resolutionError]
    · split at h
      · rename_i hemail
        cases h
        unfold extractEmailFromPayload at hemail
        simp only at hemail
        split at hemail
        · cases hemail
          simp [resolutionError]
        · cases hemail
      · cases h

theorem contest_lost (hne : p ≠ q) (kid : Option String) :
    ∃ e w, (contest p q kid).run (p.resolve kid) = (.error e, w) ∧ resolutionError e := by
  have hcached : (contest p q kid).jwks p = ⟨[]⟩ := if_neg hne
  cases kid with
  | none =>
    have hrun : (contest p q none).run (p.resolve none) =
        (.error ("JWKS for provider " ++ p.name ++ " has no keys"), contest p q none) := by
      rw [OidcProvider.resolve, OidcProvider.resolveSingleKey, readJwks_bind,
        OidcWorld.run_readJwks, hcached]
      exact OidcWorld.run_ret _ _
    exact ⟨_, _, hrun, .inl (by simp)⟩
  | some kid =>
    have hdue : (contest p q (some kid)).Due p := Nat.le_refl _
    have hfetched : ((contest p q (some kid)).refreshed p ⟨[]⟩).jwks p = ⟨[]⟩ :=
      Function.update_self ..
    have hrun : (contest p q (some kid)).run (p.resolve (some kid)) =
        (.error ("kid '" ++ kid ++ "' not found in JWKS for provider " ++ p.name ++
          " (even after refresh)"), (contest p q (some kid)).refreshed p ⟨[]⟩) := by
      rw [OidcProvider.resolve, OidcProvider.resolveKey, readJwks_bind, OidcWorld.run_readJwks,
        hcached]
      simp only [findKey, List.find?_nil]
      rw [OidcWorld.run_bind, OidcWorld.run_refreshJwks hdue rfl]
      simp only [readJwks_bind, OidcWorld.run_readJwks, hfetched, List.find?_nil]
      exact OidcWorld.run_ret _ _
    exact ⟨_, _, hrun, .inr (by simp)⟩

theorem contest_won (p q : OidcProvider) (kid : Option String) :
    (contest p q kid).run (q.resolve kid) = (.ok ⟨kid, none, ""⟩, contest p q kid) := by
  refine OidcWorld.run_resolve_cached ?_
  cases kid <;> simp [contest, pickKey, findKey]

theorem contested (hp : p ∈ providers) (hq : q ∈ providers) (hne : p ≠ q)
    (hpn : Names D idToken p) (hqn : Names D idToken q) : ¬ KeepsApart D providers idToken := by
  intro hapart
  obtain ⟨⟨payload, hparsed, hissp⟩, ⟨header, hheaded⟩⟩ := hpn
  obtain ⟨⟨payload', hparsed', hissq⟩, -⟩ := hqn
  cases hparsed.symm.trans hparsed'
  obtain ⟨-, hperm⟩ := hapart (contest p q header.kid)
  have hfirst : ∀ r : OidcProvider, payload.getStr "iss" = some r.issuer →
      ∀ rest, selectProvider (r :: rest) payload = some r := by
    intro r hiss rest
    simp [selectProvider, hiss]
  -- either provider may stand first
  have hsame := (hperm _ (List.perm_cons_erase hp).symm).trans
    (hperm _ (List.perm_cons_erase hq).symm).symm
  obtain ⟨e, w, hlost, herror⟩ := contest_lost hne header.kid
  rw [OidcWorld.verified_of_unresolved hparsed (hfirst p hissp _) hheaded hlost,
    OidcWorld.verified_of_resolved hparsed (hfirst q hissq _) hheaded (contest_won p q header.kid)]
    at hsame
  exact keyVerdict_error hsame.symm herror

end Contest

/-- Configured providers keep apart for a token exactly if all of them that it names as
issuer are one and the same. -/
theorem providers_apart_iff (D : Deps) (providers : List OidcProvider) (idToken : String) :
    KeepsApart D providers idToken ↔ ∀ p ∈ providers, ∀ q ∈ providers, Names D idToken p →
      Names D idToken q → p = q := by
  constructor
  · intro hapart p hp q hq hpn hqn
    by_contra hne
    exact contested hp hq hne hpn hqn hapart
  · intro honly w
    constructor
    · intro p hp claims haccepted
      obtain ⟨⟨payload, hparsed, hiss⟩, ⟨header, hheaded⟩⟩ := OidcWorld.verified_one haccepted
      have hall := selectProvider_unique honly hparsed hheaded hp hiss
      have hone : selectProvider [p] payload = some p := by
        simp [selectProvider, hiss]
      have hsame : verifyIdToken D providers idToken = verifyIdToken D [p] idToken := by
        rw [verifyIdToken_eq hparsed hall hheaded, verifyIdToken_eq hparsed hone hheaded]
      rw [OidcWorld.verified, hsame]
      exact haccepted
    · intro qs hperm
      have hsame : verifyIdToken D qs idToken = verifyIdToken D providers idToken := by
        cases hheaded : D.decodeHeader idToken with
        | error e => exact verifyIdToken_headless hheaded hperm
        | ok header =>
          refine verifyIdToken_congr fun payload hparsed => ?_
          cases hselected : selectProvider providers payload with
          | some p =>
            obtain ⟨hp, hiss⟩ := selectProvider_some hselected
            refine selectProvider_unique (fun r hr s hs => ?_) hparsed hheaded
              (hperm.mem_iff.mpr hp) hiss
            exact honly r (hperm.mem_iff.mp hr) s (hperm.mem_iff.mp hs)
          | none =>
            cases hother : selectProvider qs payload with
            | none => rfl
            | some q =>
              obtain ⟨hq, hiss⟩ := selectProvider_some hother
              obtain ⟨r, hr⟩ := selectProvider_mem (hperm.mem_iff.mp hq) hiss
              cases hselected.symm.trans hr
      rw [OidcWorld.verified, OidcWorld.verified, hsame]

/-- A second client at the issuer of the sample provider. -/
def secondClient : OidcProvider :=
  { Sample.provider with name := "OTHER", clientId := "other" }

/-- Every cache holds the key of the sample provider. -/
def sampleWorld : OidcWorld where
  jwks _ := ⟨[Sample.jwk]⟩
  lastRefresh _ := 0
  clock := 0
  seconds := Sample.moment
  published _ := .ok ⟨[Sample.jwk]⟩

/-- The provider that comes first decides. -/
theorem sampleWorld_verified (p : OidcProvider) (rest : List OidcProvider)
    (hiss : p.issuer = Sample.provider.issuer) :
    sampleWorld.verified Sample.deps (p :: rest) (sampleToken (some "client")) =
      keyVerdict Sample.deps p (Sample.idClaims (some "client")) .default
        (sampleToken (some "client")) Sample.jwk Sample.moment := by
  have hparsed := (sample_accepted (some "client") (by simp)).1
  have hcached : pickKey (sampleWorld.jwks p) Header.default.kid = some Sample.jwk := rfl
  have hresolved := OidcWorld.run_resolve_cached hcached
  rw [OidcWorld.verified_of_resolved hparsed (sample_selected p rest hiss) sample_headed hresolved]
  have hseconds : sampleWorld.seconds = Sample.moment := rfl
  rw [hseconds]

/-- A token for the second of two clients of one issuer is refused for the sake of the
first, though it would be accepted alone. -/
theorem second_client_refused : ¬ KeepsApart Sample.deps [secondClient, Sample.provider]
    (sampleToken (some "client")) := by
  intro hapart
  have halone : sampleWorld.verified Sample.deps [Sample.provider] (sampleToken (some "client")) =
      .ok ⟨"user@example.com"⟩ := by
    rw [sampleWorld_verified _ _ rfl, sample_verdict]
  have hlisted := (hapart sampleWorld).1 Sample.provider (by simp) _ halone
  rw [sampleWorld_verified secondClient _ rfl, keyVerdict_ok] at hlisted
  obtain ⟨key, decoded, hkey, hdecode, -⟩ := hlisted
  cases Sample.decodingKeyFromJwk_jwk.symm.trans hkey
  rw [sampleToken, Library.decode_hmacToken _ _ idClaims_scalar "key" rfl] at hdecode
  cases hdecode

end SvcAuth
