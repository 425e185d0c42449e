import SvcAuth.DeclaredAlgorithms
import SvcAuth.ProviderLists

/-! Logins across key rotations of an identity provider. The cache holds some set the
provider has served; a refresh brings it up to date, but only a `kid` that the cached set
does not know asks for one. -/
namespace SvcAuth
open Interleave JsonWebToken

/-- What happens to the validator: an identity provider serves another document or fails,
time passes on both clocks, or a token is verified. -/
inductive IdpStep
  | publish (uri : String) (document : Except FetchError JwkSet)
  | pass (ticks seconds : ℕ)
  | verify (idToken : String)

namespace OidcWorld

def step (D : Deps) (providers : List OidcProvider) (w : OidcWorld) : IdpStep → OidcWorld
  | .publish uri document => { w with published := Function.update w.published uri document }
  | .pass ticks seconds => { w with clock := w.clock + ticks, seconds := w.seconds + seconds }
  | .verify idToken => (w.run (verifyIdToken D providers idToken)).2

/-- The world after these steps. -/
def after (D : Deps) (providers : List OidcProvider) (w : OidcWorld) (steps : List IdpStep) :
    OidcWorld :=
  steps.foldl (step D providers) w

/-- At boot every provider's keys have just been fetched. -/
structure Booted (providers : List OidcProvider) (w : OidcWorld) : Prop where
  fetched : ∀ p ∈ providers, w.published p.jwksUri = .ok (w.jwks p)
  recorded : ∀ p ∈ providers, w.lastRefresh p = w.clock

/-- The sets served at this URI in the course of these steps. -/
def served (w : OidcWorld) (uri : String) (steps : List IdpStep) (jwks : JwkSet) : Prop :=
  w.published uri = .ok jwks ∨ .publish uri (.ok jwks) ∈ steps

section Caching
variable {D : Deps} {providers : List OidcProvider} {w : OidcWorld} {p : OidcProvider}
  {idToken : String}

/-- This world differs from the other by at most a refresh of the provider. -/
def RefreshedFrom (w w' : OidcWorld) (p : OidcProvider) : Prop :=
  w' = w ∨ ∃ jwks, w.published p.jwksUri = .ok jwks ∧ w' = w.refreshed p jwks

theorem refreshJwks_world (w : OidcWorld) (p : OidcProvider) :
    RefreshedFrom w (w.run p.refreshJwks).2 p := by
  by_cases due : w.Due p
  · cases hdocument : w.published p.jwksUri with
    | error failure =>
      obtain ⟨e, hrun⟩ := run_refreshJwks_failed due hdocument
      rw [hrun]
      exact .inl rfl
    | ok jwks =>
      rw [run_refreshJwks due hdocument]
      exact .inr ⟨jwks, hdocument, rfl⟩
  · rw [run_refreshJwks_early due]
    exact .inl rfl

theorem resolve_world (w : OidcWorld) (p : OidcProvider) (kid : Option String) :
    RefreshedFrom w (w.run (p.resolve kid)).2 p := by
  cases kid with
  | none =>
    rw [OidcProvider.resolve, OidcProvider.resolveSingleKey, readJwks_bind, run_readJwks]
    split <;> exact .inl rfl
  | some kid =>
    rw [OidcProvider.resolve, OidcProvider.resolveKey, readJwks_bind, run_readJwks]
    split
    · exact .inl rfl
    · have hrefresh := refreshJwks_world w p
      rw [run_bind]
      generalize w.run p.refreshJwks = result at hrefresh ⊢
      obtain ⟨e | u, w'⟩ := result
      · exact hrefresh
      · -- the second lookup changes nothing
        simp only [readJwks_bind, run_readJwks]
        split <;> exact hrefresh

theorem verify_world (w : OidcWorld) : (w.run (verifyIdToken D providers idToken)).2 = w ∨
    ∃ p ∈ providers, RefreshedFrom w (w.run (verifyIdToken D providers idToken)).2 p := by
  rcases verifyIdToken_cases D providers idToken with
    ⟨payload, header, p, -, -, hselected, hrouted⟩ | ⟨e, hrefused⟩
  · refine .inr ⟨p, (selectProvider_some hselected).1, ?_⟩
    have hresolve := resolve_world w p header.kid
    rw [hrouted, run_bind]
    generalize w.run (p.resolve header.kid) = result at hresolve ⊢
    obtain ⟨e | jwk, w'⟩ := result
    · exact hresolve
    · rw [run_judge]
      exact hresolve
  · rw [hrefused]
    exact .inl rfl

theorem after_snoc (w : OidcWorld) (steps : List IdpStep) (s : IdpStep) :
    w.after D providers (steps ++ [s]) = (w.after D providers steps).step D providers s := by
  rw [after, after, List.foldl_append]
  rfl

theorem served_snoc {uri : String} {steps : List IdpStep} {jwks : JwkSet} (s : IdpStep)
    (h : w.served uri steps jwks) : w.served uri (steps ++ [s]) jwks := by
  rcases h with hboot | hstep
  · exact .inl hboot
  · exact .inr (List.mem_append_left _ hstep)

/-- In every run, what a provider serves now and what is cached of it was served. -/
theorem cached_served (hboot : Booted providers w) (hp : p ∈ providers) (steps : List IdpStep) :
    (∀ jwks, (w.after D providers steps).published p.jwksUri = .ok jwks →
      w.served p.jwksUri steps jwks) ∧
      w.served p.jwksUri steps ((w.after D providers steps).jwks p) := by
  induction steps using List.reverseRecOn with
  | nil => exact ⟨fun jwks h => .inl h, .inl (hboot.fetched p hp)⟩
  | append_singleton steps s ih =>
    obtain ⟨hcurrent, hcached⟩ := ih
    rw [after_snoc]
    generalize w.after D providers steps = v at hcurrent hcached
    cases s with
    | publish uri document =>
      refine ⟨fun jwks hjwks => ?_, served_snoc _ hcached⟩
      by_cases huri : p.jwksUri = uri
      · subst huri
        have hdocument : document = .ok jwks := by simpa [step] using hjwks
        exact .inr (by simp [hdocument])
      · refine served_snoc _ (hcurrent jwks ?_)
        simpa [step, huri] using hjwks
    | pass ticks seconds => exact ⟨fun jwks h => served_snoc _ (hcurrent jwks h), served_snoc _ hcached⟩
    | verify idToken =>
      have hquiet : v.step D providers (.verify idToken) = v ∨ ∃ q jwks,
          v.published q.jwksUri = .ok jwks ∧
          v.step D providers (.verify idToken) = v.refreshed q jwks := by
        have hverify : v.step D providers (.verify idToken) = v ∨
            ∃ q ∈ providers, RefreshedFrom v (v.step D providers (.verify idToken)) q :=
          verify_world v
        rcases hverify with hsame | ⟨q, -, hsame | ⟨jwks, hdocument, hsame⟩⟩
        · exact .inl hsame
        · exact .inl hsame
        · exact .inr ⟨q, jwks, hdocument, hsame⟩
      rcases hquiet with hsame | ⟨q, jwks, hdocument, hsame⟩
      · rw [hsame]
        exact ⟨fun jwks h => served_snoc _ (hcurrent jwks h), served_snoc _ hcached⟩
      · rw [hsame]
        refine ⟨fun jwks h => served_snoc _ (hcurrent jwks h), served_snoc _ ?_⟩
        by_cases hq : p = q
        · subst hq
          simpa [refreshed] using hcurrent jwks hdocument
        · simpa [refreshed, hq] using hcached

end Caching

end OidcWorld

section Rotation

/-- The key of a set that a token with this `kid` is for: the only one that carries it, or
without one the only one at all. -/
def OnlyKey (jwks : JwkSet) (kid : Option String) (jwk : Jwk) : Prop :=
  match kid with
  | some kid => jwk ∈ jwks.keys ∧ jwk.keyId = some kid ∧
      ∀ other ∈ jwks.keys, other.keyId = some kid → other = jwk
  | none => jwks.keys = [jwk]

/-- The cached set has no key that is in the way: any key it has for the `kid` accepts the
token too; without a `kid` it has a single key, and that one accepts it. -/
def CacheServes (accepts : Jwk → Prop) (cached : JwkSet) (kid : Option String) : Prop :=
  match kid with
  | some kid => ∀ old, findKey cached kid = some old → accepts old
  | none => ∃ old, cached.keys = [old] ∧ accepts old

theorem OnlyKey.pick {jwks : JwkSet} {kid : String} {jwk : Jwk}
    (h : OnlyKey jwks (some kid) jwk) : findKey jwks kid = some jwk := by
  obtain ⟨hmem, hkid, honly⟩ := h
  cases hfind : findKey jwks kid with
  | none =>
    have hmiss := List.find?_eq_none.mp hfind jwk hmem
    simp [hkid] at hmiss
  | some other =>
    have hother := List.find?_some hfind
    simp only [decide_eq_true_eq] at hother
    rw [honly other (findKey_mem hfind) hother]

/-- In every run: a token that verifies under a published key, behind the cooldown and with
fetches that succeed, is accepted exactly if no cached key is in the way. What is cached was
served at some time. -/
theorem rotation_survived_iff (D : Deps) (providers : List OidcProvider) (w : OidcWorld)
    (steps : List IdpStep) (p : OidcProvider) (idToken : String) (payload : Payload)
    (header : Header) (jwks : JwkSet) (jwk : Jwk) (claims : OidcClaims)
    (hboot : w.Booted providers) (hparsed : decodeJwtPayloadUnverified D idToken = .ok payload)
    (hselected : selectProvider providers payload = some p)
    (hheaded : D.decodeHeader idToken = .ok header)
    (hpublished : (w.after D providers steps).published p.jwksUri = .ok jwks)
    (honly : OnlyKey jwks header.kid jwk)
    (hverifies : keyVerdict D p payload header idToken jwk (w.after D providers steps).seconds =
      .ok claims)
    (due : (w.after D providers steps).Due p) :
    w.served p.jwksUri steps ((w.after D providers steps).jwks p) ∧
      ((w.after D providers steps).verified D providers idToken = .ok claims ↔
        CacheServes (fun old => keyVerdict D p payload header idToken old
          (w.after D providers steps).seconds = .ok claims)
          ((w.after D providers steps).jwks p) header.kid) := by
  refine ⟨(OidcWorld.cached_served hboot (selectProvider_some hselected).1 steps).2, ?_⟩
  generalize w.after D providers steps = v at *
  cases hcached : pickKey (v.jwks p) header.kid with
  | some old =>
    -- the cached key decides
    rw [OidcWorld.verified_of_resolved hparsed hselected hheaded
      (OidcWorld.run_resolve_cached hcached)]
    unfold CacheServes
    cases hkid : header.kid with
    | some kid =>
      have hfind : findKey (v.jwks p) kid = some old := by
        rw [hkid] at hcached
        exact hcached
      simp [hfind]
    | none =>
      rw [hkid] at hcached
      have hkeys : (v.jwks p).keys = [old] := by
        unfold pickKey at hcached
        simp only at hcached
        split at hcached
        · rename_i key hsingle
          cases hcached
          exact hsingle
        · cases hcached
      simp [hkeys]
  | none =>
    cases hkid : header.kid with
    | some kid =>
      rw [hkid] at hcached honly
      have hresolved := OidcWorld.run_resolveKey_missed hcached due hpublished honly.pick
      rw [← hkid] at hresolved
      rw [OidcWorld.verified_of_resolved hparsed hselected hheaded hresolved]
      have hmissed : findKey (v.jwks p) kid = none := hcached
      simp only [CacheServes, hmissed, reduceCtorEq, false_implies, implies_true, iff_true]
      exact hverifies
    | none =>
      rw [hkid] at hcached
      obtain ⟨e, hresolved⟩ := OidcWorld.run_resolveSingleKey_missed hcached
      rw [← hkid] at hresolved
      rw [OidcWorld.verified_of_unresolved hparsed hselected hheaded hresolved]
      constructor
      · intro haccepted
        cases haccepted
      · rintro ⟨old, hkeys, -⟩
        simp [pickKey, hkeys] at hcached

/-- An id_token under the new key of the sample provider. -/
def newToken : String :=
  Sample.deps.signedToken ⟨.HS256, some "new"⟩ (Sample.idClaims (some "client")) "key"

/-- The provider replaces its key, and a minute passes. -/
def replacement : List IdpStep :=
  [.publish Sample.provider.jwksUri (.ok ⟨[Sample.newJwk]⟩), .pass 60 0]

/-- The old key is still cached when a token under the new one comes, and it is accepted. -/
theorem rotation_survived_sample :
    (sampleWorld.after Sample.deps [Sample.provider] replacement).jwks Sample.provider =
        ⟨[Sample.jwk]⟩ ∧
      (sampleWorld.after Sample.deps [Sample.provider] replacement).verified Sample.deps
        [Sample.provider] newToken = .ok ⟨"user@example.com"⟩ := by
  have hboot : sampleWorld.Booted [Sample.provider] := ⟨fun _ _ => rfl, fun _ _ => rfl⟩
  have hpublished : (sampleWorld.after Sample.deps [Sample.provider] replacement).published
      Sample.provider.jwksUri = .ok ⟨[Sample.newJwk]⟩ := by
    simp [OidcWorld.after, OidcWorld.step, replacement]
  have honly : OnlyKey ⟨[Sample.newJwk]⟩ (some "new") Sample.newJwk := by
    simp [OnlyKey, Sample.newJwk]
  have hsurvived := (rotation_survived_iff Sample.deps [Sample.provider] sampleWorld replacement
    Sample.provider _ _ ⟨.HS256, some "new"⟩ _ _ _ hboot
    (signedToken_parsed _ idClaims_scalar "key") (sample_selected _ _ rfl)
    (Library.decodeHeader_signedToken _ _ _ _) hpublished honly
    (signed_verdict (some "new")) (by decide)).2
  refine ⟨rfl, hsurvived.mpr fun old hold => ?_⟩
  cases hold

/-- The world of a provider with two keys, at boot. -/
def overlap : OidcWorld where
  jwks _ := ⟨[Sample.jwk, misdeclared]⟩
  lastRefresh _ := 0
  clock := 0
  seconds := Sample.moment
  published _ := .ok ⟨[Sample.jwk, misdeclared]⟩

/-- The second key is retired, and a minute passes. -/
def retirement : List IdpStep :=
  [.publish Sample.provider.jwksUri (.ok ⟨[Sample.jwk]⟩), .pass 60 0]

/-- A token without a `kid` is refused though the provider publishes a single key by now:
two are cached, and nothing asks for a refresh. -/
theorem rotation_unnoticed : ¬ ∀ w steps jwks jwk claims, OidcWorld.Booted [Sample.provider] w →
    (w.after Sample.deps [Sample.provider] steps).published Sample.provider.jwksUri = .ok jwks →
    OnlyKey jwks none jwk →
    keyVerdict Sample.deps Sample.provider (Sample.idClaims (some "client")) .default
      (sampleToken (some "client")) jwk (w.after Sample.deps [Sample.provider] steps).seconds =
        .ok claims →
    (w.after Sample.deps [Sample.provider] steps).Due Sample.provider →
    (w.after Sample.deps [Sample.provider] steps).verified Sample.deps [Sample.provider]
      (sampleToken (some "client")) = .ok claims := by
  intro hclaim
  have hboot : overlap.Booted [Sample.provider] := ⟨fun _ _ => rfl, fun _ _ => rfl⟩
  have hpublished : (overlap.after Sample.deps [Sample.provider] retirement).published
      Sample.provider.jwksUri = .ok ⟨[Sample.jwk]⟩ := by
    simp [OidcWorld.after, OidcWorld.step, retirement]
  have haccepted := hclaim overlap retirement _ _ _ hboot hpublished rfl sample_verdict (by decide)
  have hmissed : pickKey ((overlap.after Sample.deps [Sample.provider] retirement).jwks
      Sample.provider) none = none := rfl
  obtain ⟨e, hresolved⟩ := OidcWorld.run_resolveSingleKey_missed hmissed
  have hrefused := OidcWorld.verified_of_unresolved (sample_accepted (some "client") (by simp)).1
    (sample_selected Sample.provider [] rfl) sample_headed hresolved
  cases haccepted.symm.trans hrefused

end Rotation

end SvcAuth
