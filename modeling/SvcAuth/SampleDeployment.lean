import SvcAuth.CookieJar
import SvcAuth.HmacSha256
import SvcAuth.Handlers
import SvcAuth.OidcValidator

/-! A deployment to run the service in. The crates are stood in for by the formats they
implement, as far as the service writes them: HS256 over base64url JSON, hyphenated UUIDs. -/
namespace SvcAuth.Sample
open TextFormats HmacSha256

def algorithmNames : List (Algorithm × String) :=
  [(.HS256, "HS256"), (.HS384, "HS384"), (.HS512, "HS512"), (.ES256, "ES256"), (.ES384, "ES384"),
    (.RS256, "RS256"), (.RS384, "RS384"), (.RS512, "RS512"), (.PS256, "PS256"), (.PS384, "PS384"),
    (.PS512, "PS512"), (.EdDSA, "EdDSA")]

def algorithmName (alg : Algorithm) : String := (algorithmNames.lookup alg).getD ""

def headerMembers (h : Header) : List (String × Json) :=
  [("typ", .str "JWT"), ("alg", .str (algorithmName h.alg))] ++
    (h.kid.map fun kid => ("kid", Json.str kid)).toList

def headerOfMembers (ms : List (String × Json)) : Option Header := do
  let name ← ms.lookup "alg" >>= Json.asStr
  let entry ← algorithmNames.find? fun e => e.2 = name
  return ⟨entry.1, ms.lookup "kid" >>= Json.asStr⟩

theorem headerOfMembers_headerMembers (h : Header) : headerOfMembers (headerMembers h) = some h := by
  obtain ⟨alg, kid⟩ := h
  cases alg <;> cases kid <;> rfl

/-- The MAC of a message under a secret. Keys of other families are not stood in for. -/
def mac (material message : String) : String := base64Url (hmac (utf8 material) (utf8 message))

def errorKindText : ErrorKind → String
  | .InvalidToken => "InvalidToken"
  | .Base64 => "Base64 error"
  | .Json => "JSON error"
  | .InvalidAlgorithm => "InvalidAlgorithm"
  | .InvalidSignature => "InvalidSignature"
  | .MissingRequiredClaim claim => "Missing required claim: " ++ claim
  | .ExpiredSignature => "ExpiredSignature"
  | .ImmatureSignature => "ImmatureSignature"
  | .InvalidIssuer => "InvalidIssuer"
  | .InvalidAudience => "InvalidAudience"

def fabricErrorText : FabricError → String
  | .RevisionConflict => "revision conflict"
  | .Decode => "decode error"
  | .Unavailable => "unavailable"

def codecs : JsonWebToken.Codecs where
  b64Encode := base64Url
  b64Decode := fromBase64Url
  b64Decode_encode := fromBase64Url_base64Url
  b64Encode_dotless := base64Url_dotless
  toJson := jsonObject
  fromJson := fromJsonObject
  fromJson_toJson _ := fromJsonObject_jsonObject
  headerToJson h := jsonObject (headerMembers h)
  headerFromJson bs := fromJsonObject bs >>= headerOfMembers
  headerFromJson_toJson h := by
    have hscalar : ∀ m ∈ headerMembers h, m.2.Scalar := by
      obtain ⟨alg, kid⟩ := h
      cases kid <;> simp [headerMembers, Json.Scalar]
    rw [fromJsonObject_jsonObject hscalar]
    exact headerOfMembers_headerMembers h
  cryptoSign k alg m := if k.family = .Hmac ∧ alg = .HS256 then mac k.material m else ""
  cryptoVerify s m k alg := k.family = .Hmac && alg = .HS256 && s = mac k.material m
  cryptoSign_dotless k alg m := by
    split
    · exact base64Url_dotless _
    · simp
  cryptoVerify_sign secret m := by simp [EncodingKey.fromSecret, DecodingKey.fromSecret]

/-- The name that the tests of `cookie.rs` expect. -/
def sessionCookieName (secure : Bool) : String :=
  if secure then "__Host-session_id" else "session_id"

def deps : Deps where
  toLibrary := .documented codecs
  uuidToString := uuidText
  parseStr := fromUuidText
  parseStr_toString := fromUuidText_uuidText
  kvKeyNew s := .ok ⟨s⟩
  kvKeyNew_refresh _ := rfl
  kvKeyNew_revoked _ := rfl
  fabricErrorToString := fabricErrorText
  decodingKeyFromJwk jwk :=
    match fromBase64Url jwk.material >>= fromUtf8 with
    | some secret => .ok ⟨.Hmac, secret⟩
    | none => .error "Base64 error"
  errorKindToString := errorKindText
  standardDecode := StandardBase64.decodeStrict
  standardDecode_iff := StandardBase64.decodeStrict_iff
  sessionCookieName := sessionCookieName
  sessionCookieName_apart secure := by cases secure <;> decide
  extractSessionId header secure :=
    (header.toList.splitOn ';').findSome? fun c =>
      (stripPrefix (sessionCookieName secure ++ "=").toList (trim c)).map String.ofList

/-- The defaults of the configuration, under a secret. -/
def state : AppState where
  jwt := ⟨"secret", "svc-auth", 900, 604800⟩
  cookieConfig := .new true 604800 900
  authCheckSilentRefresh := true

theorem clean_base64Url (bs : Bytes) : Clean (base64Url bs).toList := by
  have halphabet : Clean alphabet := clean_of_all (by decide)
  exact fun c hc => halphabet c (base64Url_alphabet bs c hc)

theorem clean_hmacToken (ms : List (String × Json)) (secret : String) :
    Clean (deps.hmacToken ms secret).toList := by
  exact clean_compact (clean_base64Url _) (clean_base64Url _) (clean_base64Url _)

/-- A reading of the clock of the deployment. -/
def moment : ℕ := 1700000000

def provider : OidcProvider where
  name := "EXAMPLE"
  issuer := "https://id.example.com"
  clientId := "client"
  emailClaim := "email"
  jwksUri := "https://id.example.com/keys"
  refreshCooldown := 60

/-- A symmetric key of the provider, without an id or an algorithm of its own. -/
def jwk : Jwk := ⟨none, none, base64Url (utf8 "key")⟩

/-- The key under an id, as a provider publishes it that is about to change keys. -/
def newJwk : Jwk := { jwk with keyId := some "new" }

theorem decodingKeyFromJwk_named (kid : Option String) :
    deps.decodingKeyFromJwk { jwk with keyId := kid } = .ok (.fromSecret "key") := by
  simp [deps, jwk, fromBase64Url_base64Url, fromUtf8_utf8, DecodingKey.fromSecret]

theorem decodingKeyFromJwk_jwk : deps.decodingKeyFromJwk jwk = .ok (.fromSecret "key") :=
  decodingKeyFromJwk_named none

/-- The claims of an id_token of the provider, with or without an audience. -/
def idClaims (aud : Option String) : List (String × Json) :=
  [("iss", .str "https://id.example.com"), ("email", .str "user@example.com"),
    ("exp", .int 1700001000)] ++ (aud.map fun a => ("aud", Json.str a)).toList

end SvcAuth.Sample
