import SvcAuth.InterleaveSolo
import SvcAuth.IdTokens
import Mathlib.Logic.Function.Basic

/-! Id_tokens verified one after the other. The world holds the cached keys of every
provider, the time of their last refresh, and what the identity providers publish; in it
the resolution of a key, and with it the result of a verification, is a function. -/
namespace SvcAuth
open Interleave JsonWebToken

/-- The key of a set that a token with this `kid` is verified under. -/
def pickKey (jwks : JwkSet) (kid : Option String) : Option Jwk :=
  match kid with
  | some kid => findKey jwks kid
  | none =>
    match jwks.keys with
    | [jwk] => some jwk
    | _ => none

/-- The state behind the validator's locks, two clocks, and what a fetch of each URI gets. -/
structure OidcWorld where
  jwks : OidcProvider → JwkSet
  lastRefresh : OidcProvider → ℕ
  clock : ℕ
  seconds : ℕ
  published : String → Except FetchError JwkSet

namespace OidcWorld

def answer (w : OidcWorld) : (o : OidcOp) → o.Reply × OidcWorld
  | .readJwks p => (w.jwks p, w)
  | .elapsed p => (w.clock - w.lastRefresh p, w)
  | .fetchJwks uri => (w.published uri, w)
  | .writeJwks p jwks => ((), { w with jwks := Function.update w.jwks p jwks })
  | .resetLastRefresh p => ((), { w with lastRefresh := Function.update w.lastRefresh p w.clock })
  | .now => (w.seconds, w)

/-- A program of the validator, run to its end with nothing in between. -/
def run {α : Type} (w : OidcWorld) (program : OidcAction α) : α × OidcWorld :=
  program.execute answer w

/-- Enough time has passed since the last refresh. -/
def Due (w : OidcWorld) (p : OidcProvider) : Prop := p.refreshCooldown ≤ w.clock - w.lastRefresh p

instance (w : OidcWorld) (p : OidcProvider) : Decidable (w.Due p) :=
  inferInstanceAs (Decidable (_ ≤ _))

/-- The set was fetched and cached. -/
def refreshed (w : OidcWorld) (p : OidcProvider) (jwks : JwkSet) : OidcWorld :=
  { w with
    jwks := Function.update w.jwks p jwks
    lastRefresh := Function.update w.lastRefresh p w.clock }

section Resolution
variable {w : OidcWorld} {p : OidcProvider} {jwks : JwkSet} {jwk : Jwk}

@[simp] theorem run_ret {α : Type} (w : OidcWorld) (a : α) : w.run (.ret a) = (a, w) := rfl

theorem run_readJwks {α : Type} (w : OidcWorld) (p : OidcProvider) (k : JwkSet → OidcAction α) :
    w.run (.call (.readJwks p) k) = w.run (k (w.jwks p)) := rfl

theorem run_elapsed {α : Type} (w : OidcWorld) (p : OidcProvider) (k : ℕ → OidcAction α) :
    w.run (.call (.elapsed p) k) = w.run (k (w.clock - w.lastRefresh p)) := rfl

theorem run_fetchJwks {α : Type} (w : OidcWorld) (uri : String)
    (k : Except FetchError JwkSet → OidcAction α) :
    w.run (.call (.fetchJwks uri) k) = w.run (k (w.published uri)) := rfl

theorem run_now {α : Type} (w : OidcWorld) (k : ℕ → OidcAction α) :
    w.run (.call .now k) = w.run (k w.seconds) := rfl

theorem run_bind {α β : Type} (w : OidcWorld) (program : OidcAction α) (f : α → OidcAction β) :
    w.run (program >>= f) = (w.run program).2.run (f (w.run program).1) :=
  Prog.execute_bind ..

theorem run_refreshJwks (due : w.Due p) (hpublished : w.published p.jwksUri = .ok jwks) :
    w.run p.refreshJwks = (.ok (), w.refreshed p jwks) := by
  have hdue : ¬ w.clock - w.lastRefresh p < p.refreshCooldown := Nat.not_lt.mpr due
  rw [refreshJwks_eq, run_elapsed, if_neg hdue]
  refine (run_fetchJwks w p.jwksUri _).trans ?_
  rw [hpublished]
  rfl

theorem run_refreshJwks_early (early : ¬ w.Due p) : w.run p.refreshJwks = (.ok (), w) := by
  rw [refreshJwks_eq, run_elapsed, if_pos (Nat.lt_of_not_le early)]
  rfl

theorem run_refreshJwks_failed {failure : FetchError} (due : w.Due p)
    (hpublished : w.published p.jwksUri = .error failure) :
    ∃ e, w.run p.refreshJwks = (.error e, w) := by
  have hdue : ¬ w.clock - w.lastRefresh p < p.refreshCooldown := Nat.not_lt.mpr due
  rw [refreshJwks_eq, run_elapsed, if_neg hdue]
  cases failure with
  | send message =>
    refine ⟨"JWKS fetch failed for " ++ p.name ++ ": " ++ message,
      (run_fetchJwks w p.jwksUri _).trans ?_⟩
    rw [hpublished]
    exact run_ret w _
  | json message =>
    refine ⟨"JWKS parse failed for " ++ p.name ++ ": " ++ message,
      (run_fetchJwks w p.jwksUri _).trans ?_⟩
    rw [hpublished]
    exact run_ret w _

theorem run_resolve_cached {kid : Option String} (hcached : pickKey (w.jwks p) kid = some jwk) :
    w.run (p.resolve kid) = (.ok jwk, w) := by
  cases kid with
  | some kid =>
    have hfind : findKey (w.jwks p) kid = some jwk := hcached
    rw [OidcProvider.resolve, OidcProvider.resolveKey, readJwks_bind, run_readJwks, hfind]
    rfl
  | none =>
    rw [OidcProvider.resolve, OidcProvider.resolveSingleKey, readJwks_bind, run_readJwks]
    unfold pickKey at hcached
    simp only at hcached
    split at hcached
    · rename_i hkeys
      cases hcached
      simp [hkeys]
    · cases hcached

/-- A key that is not cached is looked for in what a refresh fetches. -/
theorem run_resolveKey_missed {kid : String} (hmissed : findKey (w.jwks p) kid = none)
    (due : w.Due p) (hpublished : w.published p.jwksUri = .ok jwks)
    (hfind : findKey jwks kid = some jwk) :
    w.run (p.resolve (some kid)) = (.ok jwk, w.refreshed p jwks) := by
  rw [OidcProvider.resolve, OidcProvider.resolveKey, readJwks_bind, run_readJwks, hmissed]
  simp only
  rw [run_bind, run_refreshJwks due hpublished]
  simp only [readJwks_bind, run_readJwks, refreshed, Function.update_self, hfind]
  rfl

theorem run_resolveSingleKey_missed (hmissed : pickKey (w.jwks p) none = none) :
    ∃ e, w.run (p.resolve none) = (.error e, w) := by
  rw [OidcProvider.resolve, OidcProvider.resolveSingleKey, readJwks_bind, run_readJwks]
  unfold pickKey at hmissed
  simp only at hmissed ⊢
  split at hmissed
  · cases hmissed
  · rename_i hmany
    split
    · rename_i jwk hkeys
      exact absurd hkeys (hmany jwk)
    · exact ⟨_, rfl⟩
    · exact ⟨_, rfl⟩

end Resolution

section Verification
variable {D : Deps} {w w' : OidcWorld} {p : OidcProvider} {providers : List OidcProvider}
  {payload : Payload} {header : Header} {idToken : String} {jwk : Jwk}

theorem run_judge (w : OidcWorld) : w.run (judge D p payload header idToken (.ok jwk)) =
    (keyVerdict D p payload header idToken jwk w.seconds, w) := by
  rw [judge]
  split
  · rename_i e hkey
    simp [keyVerdict, hkey]
  · exact run_now w _

/-- The result of a verification in this world. -/
def verified (D : Deps) (w : OidcWorld) (providers : List OidcProvider) (idToken : String) :
    Except String OidcClaims :=
  (w.run (verifyIdToken D providers idToken)).1

/-- A routed token with a resolved key gets the verdict under that key. -/
theorem verified_of_resolved (hparsed : decodeJwtPayloadUnverified D idToken = .ok payload)
    (hselected : selectProvider providers payload = some p)
    (hheaded : D.decodeHeader idToken = .ok header)
    (hresolved : w.run (p.resolve header.kid) = (.ok jwk, w')) :
    w.verified D providers idToken = keyVerdict D p payload header idToken jwk w'.seconds := by
  rw [verified, verifyIdToken_eq hparsed hselected hheaded, run_bind, hresolved, run_judge]

/-- A routed token without a key gets the error of the resolution. -/
theorem verified_of_unresolved {e : String}
    (hparsed : decodeJwtPayloadUnverified D idToken = .ok payload)
    (hselected : selectProvider providers payload = some p)
    (hheaded : D.decodeHeader idToken = .ok header)
    (hresolved : w.run (p.resolve header.kid) = (.error e, w')) :
    w.verified D providers idToken = .error e := by
  rw [verified, verifyIdToken_eq hparsed hselected hheaded, run_bind, hresolved]
  rfl

end Verification

end OidcWorld

section Sample

theorem idClaims_scalar : ∀ m ∈ Sample.idClaims (some "client"), m.2.Scalar := by
  simp [Sample.idClaims, Json.Scalar]

/-- The token of the sample provider is accepted under its key, whatever id the key has. -/
theorem signed_verdict (kid : Option String) :
    keyVerdict Sample.deps Sample.provider (Sample.idClaims (some "client")) ⟨.HS256, kid⟩
      (Sample.deps.signedToken ⟨.HS256, kid⟩ (Sample.idClaims (some "client")) "key")
      { Sample.jwk with keyId := kid } Sample.moment = .ok ⟨"user@example.com"⟩ := by
  rw [keyVerdict_ok]
  refine ⟨_, Sample.idClaims (some "client"), Sample.decodingKeyFromJwk_named kid, ?_, by decide⟩
  rw [Library.decode_signedToken _ _ rfl idClaims_scalar "key" rfl]
  rfl

theorem sample_verdict : keyVerdict Sample.deps Sample.provider (Sample.idClaims (some "client"))
    .default (sampleToken (some "client")) Sample.jwk Sample.moment =
    .ok ⟨"user@example.com"⟩ :=
  signed_verdict none

theorem sample_selected (p : OidcProvider) (rest : List OidcProvider)
    (hiss : p.issuer = Sample.provider.issuer) :
    selectProvider (p :: rest) (Sample.idClaims (some "client")) = some p := by
  have hnamed : Payload.getStr (Sample.idClaims (some "client")) "iss" =
      some Sample.provider.issuer := by decide
  simp [selectProvider, hnamed, hiss]

theorem sample_headed : Sample.deps.decodeHeader (sampleToken (some "client")) = .ok .default :=
  Library.decodeHeader_hmacToken _ _ _

end Sample

end SvcAuth
