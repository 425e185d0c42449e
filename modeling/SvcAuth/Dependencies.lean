import SvcAuth.JsonWebToken
import SvcAuth.StandardBase64

/-! What the service takes from crates outside the repository: UUID text, bucket key
validation, tokens, standard base64 and the session cookie. Each is a function left
open, together with the documented facts the service relies on. Nothing here says that
a signature cannot be forged; where that matters it is an assumption on runs. -/
namespace SvcAuth

structure Uuid where
  bits : BitVec 128
  deriving DecidableEq, Repr

/-- The algorithm a JWK may declare. -/
inductive KeyAlgorithm
  | HS256 | HS384 | HS512 | ES256 | ES384 | RS256 | RS384 | RS512
  | PS256 | PS384 | PS512 | EdDSA | RSA1_5 | RSA_OAEP | RSA_OAEP_256
  deriving DecidableEq, Repr

/-- A JWK: the two common parameters the service reads, and its key material. -/
structure Jwk where
  keyId : Option String
  keyAlgorithm : Option KeyAlgorithm
  material : String
  deriving DecidableEq, Repr

/-- A bucket key that passed `KvKey::new`. -/
structure KvKey where
  text : String
  deriving DecidableEq, Repr

/-- Why the fabric refused an operation. Only a revision mismatch is told apart. -/
inductive FabricError
  | RevisionConflict
  | Decode
  | Unavailable
  deriving DecidableEq, Repr

structure Deps extends JsonWebToken.Library where
  uuidToString : Uuid → String
  parseStr : String → Option Uuid
  parseStr_toString : ∀ u, parseStr (uuidToString u) = some u
  kvKeyNew : String → Except String KvKey
  kvKeyNew_refresh : ∀ u, kvKeyNew ("refresh." ++ uuidToString u) =
    .ok ⟨"refresh." ++ uuidToString u⟩
  kvKeyNew_revoked : ∀ u, kvKeyNew ("revoked." ++ uuidToString u) =
    .ok ⟨"revoked." ++ uuidToString u⟩
  fabricErrorToString : FabricError → String
  decodingKeyFromJwk : Jwk → Except String DecodingKey
  errorKindToString : ErrorKind → String
  /-- The `STANDARD` engine of `base64` takes the text it would write and no other. -/
  standardDecode : String → Option Bytes
  standardDecode_iff : ∀ {s bytes}, standardDecode s = some bytes ↔ StandardBase64.encode bytes = s
  /-- `br_core_auth::session_cookie_name`, by whether cookies are secure. -/
  sessionCookieName : Bool → String
  sessionCookieName_apart : ∀ secure, sessionCookieName secure ∉
    ["__Host-access_token", "__Host-refresh_token", "access_token", "refresh_token"]
  /-- `br_core_auth::extract_session_id`. -/
  extractSessionId : String → Bool → Option String

namespace Deps

theorem uuidToString_injective (D : Deps) : Function.Injective D.uuidToString := by
  intro u v h
  have hu := D.parseStr_toString u
  rw [h, D.parseStr_toString v] at hu
  exact (Option.some.inj hu).symm

@[simp] theorem standardDecode_encode (D : Deps) (bytes : Bytes) :
    D.standardDecode (StandardBase64.encode bytes) = some bytes :=
  D.standardDecode_iff.mpr rfl

end Deps

end SvcAuth
