import SvcAuth.KeyResolution

/-! Which algorithm an id_token is verified with. A key that declares one of the mapped
algorithms accepts that one only; any other declaration counts as none, and then the header
of the token chooses. -/
namespace SvcAuth
open Interleave JsonWebToken

/-- The signature algorithm of the same name. The encryption algorithms have none. -/
def KeyAlgorithm.algorithm : KeyAlgorithm → Option Algorithm
  | .HS256 => some .HS256
  | .HS384 => some .HS384
  | .HS512 => some .HS512
  | .ES256 => some .ES256
  | .ES384 => some .ES384
  | .RS256 => some .RS256
  | .RS384 => some .RS384
  | .RS512 => some .RS512
  | .PS256 => some .PS256
  | .PS384 => some .PS384
  | .PS512 => some .PS512
  | .EdDSA => some .EdDSA
  | .RSA1_5 | .RSA_OAEP | .RSA_OAEP_256 => none

/-- The declaration is binding for a token with this header algorithm: it is the declared
one, and none for secrets shared with the client. -/
def Binds (declared : KeyAlgorithm) (alg : Algorithm) : Prop :=
  declared.algorithm = some alg ∧ alg.family ≠ .Hmac

/-- In this execution the token, with this header, is accepted under this key. -/
structure AcceptedUnder (D : Deps) (providers : List OidcProvider) (idToken : String)
    (tr : List OidcCalls.Event) (claims : OidcClaims) (header : Header) (jwk : Jwk) : Prop where
  ran : Prog.Ran (verifyIdToken D providers idToken) tr (.ok claims)
  headed : D.decodeHeader idToken = .ok header
  resolved : ∃ payload provider before after,
    decodeJwtPayloadUnverified D idToken = .ok payload ∧
    selectProvider providers payload = some provider ∧ tr = before ++ after ∧
    Prog.Ran (provider.resolve header.kid) before (.ok jwk)

variable {D : Deps} {providers : List OidcProvider} {idToken : String}
  {tr : List OidcCalls.Event} {claims : OidcClaims} {header : Header} {jwk : Jwk}
  {declared : KeyAlgorithm}

/-- The mapping is partial: it knows the asymmetric signature algorithms. -/
theorem keyAlgorithmToJwt_some {alg : Algorithm} :
    keyAlgorithmToJwt declared = some alg ↔ Binds declared alg := by
  unfold Binds
  cases declared <;> cases alg <;>
    simp [keyAlgorithmToJwt, KeyAlgorithm.algorithm, Algorithm.family]

theorem AcceptedUnder.alg (h : AcceptedUnder D providers idToken tr claims header jwk) :
    header.alg = verificationAlgorithm jwk header := by
  obtain ⟨payload, provider, before, after, hparsed, hselected, rfl, hresolved⟩ := h.resolved
  obtain ⟨payload', provider', header', jwk', t₁, now, hparsed', hselected', hheaded', hresolved',
    htr, hverdict⟩ := verifyIdToken_ok h.ran
  cases hparsed.symm.trans hparsed'
  cases hselected.symm.trans hselected'
  cases h.headed.symm.trans hheaded'
  -- the two resolutions are the same one
  obtain ⟨-, hjwk⟩ := hresolved.unique hresolved' htr
  cases hjwk
  obtain ⟨key, decoded, -, hdecode, -⟩ := keyVerdict_ok.mp hverdict
  obtain ⟨-, -, -, -, header', -, -, -, -, hheaded', halg, -⟩ := decode_same_payload hparsed hdecode
  cases h.headed.symm.trans hheaded'
  exact List.mem_singleton.mp halg

/-- The declaration of a key under which a token is accepted is binding exactly if it is
one of the mapped algorithms. -/
theorem declared_binds_iff (D : Deps) (providers : List OidcProvider) (idToken : String)
    (tr : List OidcCalls.Event) (claims : OidcClaims) (header : Header) (jwk : Jwk)
    (declared : KeyAlgorithm) (h : AcceptedUnder D providers idToken tr claims header jwk)
    (hdeclared : jwk.keyAlgorithm = some declared) :
    Binds declared header.alg ↔ (keyAlgorithmToJwt declared).isSome := by
  rw [← keyAlgorithmToJwt_some]
  constructor
  · intro hbound
    rw [hbound]
    rfl
  · intro hmapped
    obtain ⟨alg, halg⟩ := Option.isSome_iff_exists.mp hmapped
    have hused : verificationAlgorithm jwk header = alg := by
      simp [verificationAlgorithm, hdeclared, halg]
    rw [halg, h.alg, hused]

/-- The key of the sample provider, declared for another algorithm than its tokens have. -/
def misdeclared : Jwk := { Sample.jwk with keyAlgorithm := some .HS512 }

/-- What the validator does with a token of the sample provider under this key. -/
def misdeclaredCalls : List OidcCalls.Event :=
  [⟨.readJwks Sample.provider, ⟨[misdeclared]⟩⟩, ⟨.now, Sample.moment⟩]

theorem misdeclared_accepted : AcceptedUnder Sample.deps [Sample.provider]
    (sampleToken (some "client")) misdeclaredCalls ⟨"user@example.com"⟩ .default misdeclared := by
  have hms : ∀ m ∈ Sample.idClaims (some "client"), m.2.Scalar := by
    simp [Sample.idClaims, Json.Scalar]
  have hkey : Sample.deps.decodingKeyFromJwk misdeclared = .ok (.fromSecret "key") :=
    Sample.decodingKeyFromJwk_jwk
  have haccepted : decodeJwtPayloadUnverified Sample.deps (sampleToken (some "client")) =
      .ok (Sample.idClaims (some "client")) ∧ Prog.Ran (verifyIdToken Sample.deps [Sample.provider]
        (sampleToken (some "client"))) misdeclaredCalls (.ok ⟨"user@example.com"⟩) :=
    hmacToken_accepted hkey rfl hms (by decide) rfl (by decide) (by decide)
  constructor
  · exact haccepted.2
  · exact Library.decodeHeader_hmacToken _ _ _
  · refine ⟨_, Sample.provider, [_], [_], haccepted.1, by decide, rfl, ?_⟩
    exact .call (.ret _)

theorem declared_binds_sample : Binds .HS512 Header.default.alg ↔
    (keyAlgorithmToJwt .HS512).isSome :=
  declared_binds_iff _ _ _ _ _ _ _ _ misdeclared_accepted rfl

/-- A key declared for HS512 accepts a token signed with HS256. -/
theorem declaration_ignored : ¬ ∀ tr claims header jwk declared,
    AcceptedUnder Sample.deps [Sample.provider] (sampleToken (some "client")) tr claims header jwk →
    jwk.keyAlgorithm = some declared → Binds declared header.alg := by
  intro hclaim
  have hbound := hclaim _ _ _ _ .HS512 misdeclared_accepted rfl
  exact absurd hbound.1 (by decide)

end SvcAuth
