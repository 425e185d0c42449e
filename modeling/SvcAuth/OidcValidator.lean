import SvcAuth.InterleaveProg
import SvcAuth.JsonWebToken
import SvcAuth.RefreshStore

/-! The id_token validator. The payload is parsed twice: once unverified, to pick the
provider and later the email, and once more inside the library's `decode`. The cached JWKS
of a provider, its refresh and the clock are calls. -/
namespace SvcAuth
open Interleave JsonWebToken

structure OidcProvider where
  name : String
  issuer : String
  clientId : String
  emailClaim : String
  jwksUri : String
  refreshCooldown : ℕ
  deriving DecidableEq, Repr

structure JwkSet where
  keys : List Jwk
  deriving DecidableEq, Repr

/-- Why a JWKS could not be fetched: the request failed, or its answer did not parse. -/
inductive FetchError
  | send (message : String)
  | json (message : String)
  deriving DecidableEq, Repr

/-- The calls the validator makes, on the locks of one provider where they have one. -/
inductive OidcOp
  | readJwks (p : OidcProvider)
  | elapsed (p : OidcProvider)
  | fetchJwks (uri : String)
  | writeJwks (p : OidcProvider) (jwks : JwkSet)
  | resetLastRefresh (p : OidcProvider)
  | now
  deriving DecidableEq, Repr

def OidcOp.Reply : OidcOp → Type
  | .readJwks _ => JwkSet
  | .elapsed _ => ℕ
  | .fetchJwks _ => Except FetchError JwkSet
  | .writeJwks _ _ => Unit
  | .resetLastRefresh _ => Unit
  | .now => ℕ

abbrev OidcCalls : Sig := ⟨OidcOp, OidcOp.Reply⟩

abbrev OidcAction := Prog OidcCalls

/-- `last_refresh.elapsed()`. -/
def elapsed (p : OidcProvider) : OidcAction ℕ := .op (S := OidcCalls) (.elapsed p)

/-- The clock reading `decode` validates `exp` against. -/
def validationNow : OidcAction ℕ := .op (S := OidcCalls) .now

def readJwks (p : OidcProvider) : OidcAction JwkSet := .op (S := OidcCalls) (.readJwks p)

def findKey (jwks : JwkSet) (kid : String) : Option Jwk :=
  jwks.keys.find? fun k => k.keyId = some kid

def keyAlgorithmToJwt : KeyAlgorithm → Option Algorithm
  | .RS256 => some .RS256
  | .RS384 => some .RS384
  | .RS512 => some .RS512
  | .ES256 => some .ES256
  | .ES384 => some .ES384
  | .PS256 => some .PS256
  | .PS384 => some .PS384
  | .PS512 => some .PS512
  | .EdDSA => some .EdDSA
  | _ => none

variable (D : Deps)

/-- A payload as `HashMap<String, Value>` shows it. -/
abbrev Payload := List (String × Json)

def decodeJwtPayloadUnverified (token : String) : Except String Payload :=
  match splitDots token with
  | [_, payload, _] =>
    match D.b64Decode payload with
    | none => .error "invalid token encoding"
    | some bytes =>
      match D.fromJson bytes with
      | none => .error "invalid token payload"
      | some ms => .ok ms
  | _ => .error "invalid token format"

/-- `payload.get(claim).and_then(|v| v.as_str())`. -/
def Payload.getStr (payload : Payload) (claim : String) : Option String :=
  lookup payload claim >>= Json.asStr

def extractEmailFromPayload (payload : Payload) (emailClaim : String) : Except String String :=
  let email := ((payload.getStr emailClaim).or (payload.getStr "email")).getD ""
  if email.isEmpty then
    .error ("no '" ++ emailClaim ++ "' or 'email' claim found in id_token")
  else .ok email

namespace OidcProvider
variable (p : OidcProvider)

def refreshJwks : OidcAction (Except String Unit) := do
  if (← elapsed p) < p.refreshCooldown then return .ok ()
  else
    match ← Prog.op (S := OidcCalls) (.fetchJwks p.jwksUri) with
    | .error (.send e) => return .error ("JWKS fetch failed for " ++ p.name ++ ": " ++ e)
    | .error (.json e) => return .error ("JWKS parse failed for " ++ p.name ++ ": " ++ e)
    | .ok newKeys => do
      let _ ← Prog.op (S := OidcCalls) (.writeJwks p newKeys)
      let _ ← Prog.op (S := OidcCalls) (.resetLastRefresh p)
      return .ok ()

def resolveKey (kid : String) : OidcAction (Except String Jwk) := do
  let keys ← readJwks p
  match findKey keys kid with
  | some jwk => return .ok jwk
  | none =>
    match ← p.refreshJwks with
    | .error e => return .error e
    | .ok () => do
      let keys ← readJwks p
      match findKey keys kid with
      | some jwk => return .ok jwk
      | none => return .error ("kid '" ++ kid ++ "' not found in JWKS for provider " ++ p.name ++
          " (even after refresh)")

def resolveSingleKey : OidcAction (Except String Jwk) := do
  let jwks ← readJwks p
  match jwks.keys with
  | [jwk] => return .ok jwk
  | [] => return .error ("JWKS for provider " ++ p.name ++ " has no keys")
  | keys => return .error ("id_token has no kid and JWKS for provider " ++ p.name ++ " has " ++
      toString keys.length ++ " keys — cannot pick one")

/-- Two routes to a key, by the token's `kid`. -/
def resolve (kid : Option String) : OidcAction (Except String Jwk) :=
  match kid with
  | some kid => p.resolveKey kid
  | none => p.resolveSingleKey

/-- What the validator asks of a token of this provider. -/
def validation (alg : Algorithm) : Validation :=
  ((Validation.new alg).setIssuer [p.issuer]).setAudience [p.clientId]

end OidcProvider

/-- The algorithm the key declares, else the one of the header. -/
def verificationAlgorithm (jwk : Jwk) (header : Header) : Algorithm :=
  (jwk.keyAlgorithm.bind keyAlgorithmToJwt).getD header.alg

def verifyIdToken (providers : List OidcProvider) (idToken : String) :
    OidcAction (Except String OidcClaims) :=
  match decodeJwtPayloadUnverified D idToken with
  | .error e => return .error e
  | .ok payload =>
    match payload.getStr "iss" with
    | none => return .error "no iss claim in token"
    | some issuer =>
      match providers.find? fun p => p.issuer = issuer with
      | none => return .error ("no OIDC provider configured for issuer: " ++ issuer)
      | some provider =>
        match D.decodeHeader idToken with
        | .error e => return .error ("invalid token header: " ++ D.errorKindToString e)
        | .ok header => do
          match ← provider.resolve header.kid with
          | .error e => return .error e
          | .ok jwk =>
            let alg := verificationAlgorithm jwk header
            match D.decodingKeyFromJwk jwk with
            | .error e =>
              return .error ("invalid JWK for kid " ++ jwk.keyId.getD "unknown" ++ ": " ++ e)
            | .ok key => do
              let now ← validationNow
              -- `decode::<HashMap<String, Value>>` reads any object
              match D.decode some idToken key (provider.validation alg) now with
              | .error e =>
                return .error ("id_token verification failed for " ++ provider.name ++ ": " ++
                  D.errorKindToString e)
              | .ok _ =>
                match extractEmailFromPayload payload provider.emailClaim with
                | .error e => return .error e
                | .ok email => return .ok ⟨email⟩

end SvcAuth
