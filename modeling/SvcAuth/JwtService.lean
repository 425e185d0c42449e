import SvcAuth.JsonWebToken
import SvcAuth.RefreshStore

/-! The service's own JWTs: the two claim sets, how they are signed, and how each kind
is verified. Signing and verifying read the clock, so both are programs; what they
compute from one reading is a function of its own. -/
namespace SvcAuth
open Interleave JsonWebToken

def clockSkewLeewaySecs : ℕ := 5

structure AccessClaims where
  sub : String
  iss : String
  iat : Int64
  exp : Int64
  deriving DecidableEq, Repr

structure RefreshClaims where
  sub : String
  jti : String
  iss : String
  iat : Int64
  exp : Int64
  deriving DecidableEq, Repr

/-- `Serialize`, in field order. -/
def AccessClaims.toMembers (c : AccessClaims) : List (String × Json) :=
  [("sub", .str c.sub), ("iss", .str c.iss), ("iat", .int c.iat.toInt), ("exp", .int c.exp.toInt)]

def RefreshClaims.toMembers (c : RefreshClaims) : List (String × Json) :=
  [("sub", .str c.sub), ("jti", .str c.jti), ("iss", .str c.iss), ("iat", .int c.iat.toInt),
    ("exp", .int c.exp.toInt)]

/-- `Deserialize`: every field must be there, any other member is ignored. -/
def AccessClaims.fromMembers (ms : List (String × Json)) : Option AccessClaims := do
  let sub ← required ms "sub" Json.asStr
  let iss ← required ms "iss" Json.asStr
  let iat ← required ms "iat" Json.asI64
  let exp ← required ms "exp" Json.asI64
  return ⟨sub, iss, iat, exp⟩

def RefreshClaims.fromMembers (ms : List (String × Json)) : Option RefreshClaims := do
  let sub ← required ms "sub" Json.asStr
  let jti ← required ms "jti" Json.asStr
  let iss ← required ms "iss" Json.asStr
  let iat ← required ms "iat" Json.asI64
  let exp ← required ms "exp" Json.asI64
  return ⟨sub, jti, iss, iat, exp⟩

structure JwtService where
  secret : String
  issuer : String
  accessTtlSecs : UInt64
  refreshTtlSecs : UInt64
  deriving DecidableEq, Repr

inductive JwtError
  | Expired
  | Invalid (message : String)
  deriving DecidableEq, Repr

namespace JwtService
variable (D : Deps) (svc : JwtService)

def encodingKey : EncodingKey := .fromSecret svc.secret

def decodingKey : DecodingKey := .fromSecret svc.secret

/-- The claims of an access token signed at clock reading `now`; the sum wraps. -/
def accessClaims (email : String) (now : ℕ) : AccessClaims :=
  ⟨email, svc.issuer, Int64.ofNat now, Int64.ofNat now + svc.accessTtlSecs.toInt64⟩

def refreshClaims (email : String) (tokenId : Uuid) (now : ℕ) : RefreshClaims :=
  ⟨email, D.uuidToString tokenId, svc.issuer, Int64.ofNat now,
    Int64.ofNat now + svc.refreshTtlSecs.toInt64⟩

def accessJwt (email : String) (now : ℕ) : Except ErrorKind String :=
  D.encode .default (svc.accessClaims email now).toMembers svc.encodingKey

def refreshJwt (email : String) (tokenId : Uuid) (now : ℕ) : Except ErrorKind String :=
  D.encode .default (svc.refreshClaims D email tokenId now).toMembers svc.encodingKey

def signAccessToken (email : String) : Action (Except String String) := do
  let now ← utcNow
  return (svc.accessJwt D email now).mapError fun e =>
    "failed to sign access token: " ++ D.errorKindToString e

def signRefreshToken (email : String) : Action (Except String (String × Uuid)) := do
  let tokenId ← nowV7
  let now ← utcNow
  match svc.refreshJwt D email tokenId now with
  | .error e => return .error ("failed to sign refresh token: " ++ D.errorKindToString e)
  | .ok jwt => return .ok (jwt, tokenId)

def accessValidation : Validation :=
  { (Validation.default.setIssuer [svc.issuer]).setRequiredSpecClaims
      ["sub", "iss", "iat", "exp"] with leeway := clockSkewLeewaySecs }

def refreshValidation : Validation :=
  { (Validation.default.setIssuer [svc.issuer]).setRequiredSpecClaims
      ["sub", "jti", "iss", "iat", "exp"] with leeway := clockSkewLeewaySecs }

/-- An expired signature is told apart from every other refusal. -/
def mapJwtError (e : ErrorKind) : JwtError :=
  match e with
  | .ExpiredSignature => .Expired
  | e => .Invalid (D.errorKindToString e)

/-- The verdict on an access token at clock reading `now`. -/
def accessVerdict (token : String) (now : ℕ) : Except JwtError AccessClaims :=
  (D.decode AccessClaims.fromMembers token svc.decodingKey svc.accessValidation now).mapError
    (mapJwtError D)

/-- The verdict on a refresh token at clock reading `now`. -/
def refreshVerdict (token : String) (now : ℕ) : Except JwtError RefreshClaims :=
  (D.decode RefreshClaims.fromMembers token svc.decodingKey svc.refreshValidation now).mapError
    (mapJwtError D)

def verifyAccessToken (token : String) : Action (Except JwtError AccessClaims) := do
  let now ← utcNow
  return svc.accessVerdict D token now

def verifyRefreshToken (token : String) : Action (Except JwtError RefreshClaims) := do
  let now ← utcNow
  return svc.refreshVerdict D token now

/-- The access token signed at clock reading `now`. -/
def accessToken (email : String) (now : ℕ) : String :=
  D.hmacToken (svc.accessClaims email now).toMembers svc.secret

/-- The refresh token signed at clock reading `now`. -/
def refreshToken (email : String) (tokenId : Uuid) (now : ℕ) : String :=
  D.hmacToken (svc.refreshClaims D email tokenId now).toMembers svc.secret

@[simp] theorem accessJwt_eq (email : String) (now : ℕ) :
    svc.accessJwt D email now = .ok (svc.accessToken D email now) :=
  D.encode_secret _ _ _ rfl

@[simp] theorem refreshJwt_eq (email : String) (tokenId : Uuid) (now : ℕ) :
    svc.refreshJwt D email tokenId now = .ok (svc.refreshToken D email tokenId now) :=
  D.encode_secret _ _ _ rfl

theorem verifyAccessToken_bind {α : Type} (token : String)
    (f : Except JwtError AccessClaims → Action α) :
    svc.verifyAccessToken D token >>= f = .call .utcNow fun now => f (svc.accessVerdict D token now) :=
  rfl

theorem verifyRefreshToken_bind {α : Type} (token : String)
    (f : Except JwtError RefreshClaims → Action α) :
    svc.verifyRefreshToken D token >>= f =
      .call .utcNow fun now => f (svc.refreshVerdict D token now) :=
  rfl

/-- Signing cannot fail: the key always fits the default header. -/
theorem signAccessToken_eq (email : String) : svc.signAccessToken D email =
    .call .utcNow fun now => .ret (.ok (svc.accessToken D email now)) := by
  simp only [signAccessToken, accessJwt_eq]
  rfl

theorem signRefreshToken_eq (email : String) : svc.signRefreshToken D email =
    .call .nowV7 fun id => .call .utcNow fun now =>
      .ret (.ok (svc.refreshToken D email id now, id)) := by
  simp only [signRefreshToken, refreshJwt_eq]
  rfl

theorem signAccessToken_bind {α : Type} (email : String) (f : Except String String → Action α) :
    svc.signAccessToken D email >>= f =
      .call .utcNow fun now => f (.ok (svc.accessToken D email now)) := by
  rw [signAccessToken_eq]
  rfl

theorem signRefreshToken_bind {α : Type} (email : String)
    (f : Except String (String × Uuid) → Action α) :
    svc.signRefreshToken D email >>= f =
      .call .nowV7 fun id => .call .utcNow fun now =>
        f (.ok (svc.refreshToken D email id now, id)) := by
  rw [signRefreshToken_eq]
  rfl

end JwtService

section Claims

@[simp] theorem asI64_toInt (i : Int64) : Json.asI64 (.int i.toInt) = some i := by
  have hlo := i.le_toInt
  have hhi := i.toInt_lt
  simp only [Json.asI64]
  rw [if_pos ⟨hlo, hhi⟩, Int64.ofInt_toInt]

theorem scalar_toInt (i : Int64) : (Json.int i.toInt).Scalar := by
  have hlo := i.le_toInt
  have hhi := i.toInt_lt
  exact ⟨hlo, by omega⟩

theorem AccessClaims.scalar (c : AccessClaims) : ∀ m ∈ c.toMembers, m.2.Scalar := by
  intro m hm
  simp only [AccessClaims.toMembers, List.mem_cons, List.not_mem_nil, or_false] at hm
  rcases hm with rfl | rfl | rfl | rfl
  · trivial
  · trivial
  · exact scalar_toInt _
  · exact scalar_toInt _

theorem RefreshClaims.scalar (c : RefreshClaims) : ∀ m ∈ c.toMembers, m.2.Scalar := by
  intro m hm
  simp only [RefreshClaims.toMembers, List.mem_cons, List.not_mem_nil, or_false] at hm
  rcases hm with rfl | rfl | rfl | rfl | rfl
  · trivial
  · trivial
  · trivial
  · exact scalar_toInt _
  · exact scalar_toInt _

@[simp] theorem AccessClaims.fromMembers_toMembers (c : AccessClaims) :
    AccessClaims.fromMembers c.toMembers = some c := by
  simp [AccessClaims.fromMembers, AccessClaims.toMembers, required, field, occurrences, Json.asStr]

@[simp] theorem RefreshClaims.fromMembers_toMembers (c : RefreshClaims) :
    RefreshClaims.fromMembers c.toMembers = some c := by
  simp [RefreshClaims.fromMembers, RefreshClaims.toMembers, required, field, occurrences,
    Json.asStr]

theorem AccessClaims.fromMembers_refresh (c : RefreshClaims) :
    AccessClaims.fromMembers c.toMembers = some ⟨c.sub, c.iss, c.iat, c.exp⟩ := by
  simp [AccessClaims.fromMembers, RefreshClaims.toMembers, required, field, occurrences, Json.asStr]

theorem RefreshClaims.fromMembers_access (c : AccessClaims) :
    RefreshClaims.fromMembers c.toMembers = none := by
  simp [RefreshClaims.fromMembers, AccessClaims.toMembers, required, field, occurrences, Json.asStr]

/-- The registered claims of either kind of token. -/
def registered (sub iss : String) (exp : Int64) : ClaimsForValidation :=
  ⟨numericType (some (.int exp.toInt)), .notPresent, .parsed sub, .parsed [iss], .notPresent⟩

theorem AccessClaims.claimsForValidation (c : AccessClaims) :
    JsonWebToken.claimsForValidation c.toMembers = some (registered c.sub c.iss c.exp) := by
  simp [JsonWebToken.claimsForValidation, AccessClaims.toMembers, field, occurrences, registered,
    numericType, tryParse, Json.asStr, stringOrStrings]

theorem RefreshClaims.claimsForValidation (c : RefreshClaims) :
    JsonWebToken.claimsForValidation c.toMembers = some (registered c.sub c.iss c.exp) := by
  simp [JsonWebToken.claimsForValidation, RefreshClaims.toMembers, field, occurrences, registered,
    numericType, tryParse, Json.asStr, stringOrStrings]

/-- Both kinds are validated alike: only the expiry can fail. -/
theorem validate_registered (svc : JwtService) {v : Validation}
    (hv : v = svc.accessValidation ∨ v = svc.refreshValidation) (sub : String) (exp : Int64)
    (now : ℕ) :
    validate (registered sub svc.issuer exp) v now =
      if exp.toInt < 0 then .error (.MissingRequiredClaim "exp")
      else if exp.toInt < leewayStart clockSkewLeewaySecs now then .error .ExpiredSignature
      else .ok () := by
  have hhi := exp.toInt_lt
  by_cases hneg : exp.toInt < 0
  · have hexp : numericType (some (.int exp.toInt)) = .failedToParse := by
      simp only [numericType]
      rw [if_neg (by omega)]
    rw [if_pos hneg]
    rcases hv with rfl | rfl <;>
      simp [validate, missingClaim, registered, hexp, JwtService.accessValidation,
        JwtService.refreshValidation, Validation.setRequiredSpecClaims, present,
        TryParse.Present]
  · obtain ⟨n, hn⟩ := Int.eq_ofNat_of_zero_le (not_lt.mp hneg)
    have hexp : numericType (some (.int exp.toInt)) = .parsed n := by
      simp only [numericType]
      rw [if_pos (by omega), hn, Int.toNat_natCast]
    have hpast : exp.toInt < leewayStart clockSkewLeewaySecs now ↔
        n < leewayStart clockSkewLeewaySecs now := by
      omega
    simp only [if_neg hneg, hpast]
    by_cases hlt : n < leewayStart clockSkewLeewaySecs now <;> rcases hv with rfl | rfl <;>
      simp [validate, missingClaim, registered, hexp, JwtService.accessValidation,
        JwtService.refreshValidation, Validation.setRequiredSpecClaims, Validation.setIssuer,
        Validation.default, Validation.new, present, TryParse.Present, expired, issuerRefused,
        audienceRefused, hlt]

end Claims

namespace JwtService
variable (D : Deps) (svc : JwtService)

theorem ok_of_mapError {T E E' : Type} {x : Except E T} {f : E → E'} {t : T}
    (h : x.mapError f = .ok t) : x = .ok t := by
  cases x with
  | error e => cases h
  | ok t' => exact congrArg Except.ok (Except.ok.inj h)

/-- What expiry leaves of a verdict: a negative time does not read as a number. -/
def expiryVerdict {T : Type} (exp : Int64) (now : ℕ) (claims : T) : Except JwtError T :=
  if exp.toInt < 0 then .error (.Invalid (D.errorKindToString (.MissingRequiredClaim "exp")))
  else if exp.toInt < leewayStart clockSkewLeewaySecs now then .error .Expired
  else .ok claims

theorem expiryVerdict_ok {T : Type} {exp : Int64} {now : ℕ} {claims : T} :
    (∃ t, expiryVerdict D exp now claims = .ok t) ↔
      ¬ (exp.toInt < 0 ∨ exp.toInt < leewayStart clockSkewLeewaySecs now) := by
  unfold expiryVerdict
  by_cases hneg : exp.toInt < 0
  · simp [hneg]
  · by_cases hpast : exp.toInt < leewayStart clockSkewLeewaySecs now
    · simp [hneg, hpast]
    · simp [hneg, hpast]

theorem decode_service {T : Type} (read : List (String × Json) → Option T) {v : Validation}
    (hv : v = svc.accessValidation ∨ v = svc.refreshValidation) {ms : List (String × Json)}
    (hms : ∀ m ∈ ms, m.2.Scalar) {claims : T} (hread : read ms = some claims) {sub : String}
    {exp : Int64} (hreg : claimsForValidation ms = some (registered sub svc.issuer exp)) (now : ℕ) :
    (D.decode read (D.hmacToken ms svc.secret) svc.decodingKey v now).mapError (mapJwtError D) =
      expiryVerdict D exp now claims := by
  have halg : v.algorithms = [.HS256] := by
    rcases hv with rfl | rfl <;> rfl
  rw [decodingKey, D.decode_hmacToken read hms svc.secret halg, claimsVerdict]
  simp only [hread, hreg, validate_registered svc hv, expiryVerdict]
  by_cases hneg : exp.toInt < 0
  · simp only [if_pos hneg]
    rfl
  · by_cases hpast : exp.toInt < leewayStart clockSkewLeewaySecs now
    · simp only [if_neg hneg, if_pos hpast]
      rfl
    · simp only [if_neg hneg, if_neg hpast]
      rfl

/-- A refresh token verifies as one until it expires. -/
theorem refreshVerdict_refreshToken (email : String) (tokenId : Uuid) (signed now : ℕ) :
    svc.refreshVerdict D (svc.refreshToken D email tokenId signed) now =
      expiryVerdict D (svc.refreshClaims D email tokenId signed).exp now
        (svc.refreshClaims D email tokenId signed) :=
  decode_service D svc _ (.inr rfl) (RefreshClaims.scalar _) (RefreshClaims.fromMembers_toMembers _)
    (RefreshClaims.claimsForValidation _) now

theorem accessVerdict_accessToken (email : String) (signed now : ℕ) :
    svc.accessVerdict D (svc.accessToken D email signed) now =
      expiryVerdict D (svc.accessClaims email signed).exp now (svc.accessClaims email signed) :=
  decode_service D svc _ (.inl rfl) (AccessClaims.scalar _) (AccessClaims.fromMembers_toMembers _)
    (AccessClaims.claimsForValidation _) now

/-- A refresh token passes for an access token until it expires. -/
theorem accessVerdict_refreshToken (email : String) (tokenId : Uuid) (signed now : ℕ) :
    svc.accessVerdict D (svc.refreshToken D email tokenId signed) now =
      expiryVerdict D (svc.refreshClaims D email tokenId signed).exp now
        ⟨email, svc.issuer, Int64.ofNat signed, (svc.refreshClaims D email tokenId signed).exp⟩ :=
  decode_service D svc _ (.inl rfl) (RefreshClaims.scalar _) (AccessClaims.fromMembers_refresh _)
    (RefreshClaims.claimsForValidation _) now

theorem refreshVerdict_accessToken (email : String) (signed now : ℕ) :
    svc.refreshVerdict D (svc.accessToken D email signed) now =
      .error (.Invalid (D.errorKindToString .Json)) := by
  have hread := RefreshClaims.fromMembers_access (svc.accessClaims email signed)
  have halg : svc.refreshValidation.algorithms = [.HS256] := rfl
  rw [refreshVerdict, accessToken, decodingKey,
    D.decode_hmacToken _ (AccessClaims.scalar _) svc.secret halg, claimsVerdict]
  simp [hread, Except.mapError, mapJwtError]

theorem refreshVerdict_ne_empty {token : String} {now : ℕ} {claims : RefreshClaims}
    (h : svc.refreshVerdict D token now = .ok claims) : token ≠ "" :=
  Library.decode_ne_empty (ok_of_mapError h)

theorem refreshVerdict_ok {email : String} {tokenId : Uuid} {signed now : ℕ} {claims : RefreshClaims}
    (h : svc.refreshVerdict D (svc.refreshToken D email tokenId signed) now = .ok claims) :
    claims.sub = email ∧ D.parseStr claims.jti = some tokenId := by
  rw [refreshVerdict_refreshToken, expiryVerdict] at h
  split at h
  · cases h
  · split at h
    · cases h
    · cases h
      exact ⟨rfl, D.parseStr_toString tokenId⟩

theorem refreshToken_ne_empty (email : String) (tokenId : Uuid) (signed : ℕ) :
    svc.refreshToken D email tokenId signed ≠ "" :=
  D.hmacToken_ne_empty _ _

theorem accessToken_ne_empty (email : String) (signed : ℕ) : svc.accessToken D email signed ≠ "" :=
  D.hmacToken_ne_empty _ _

end JwtService

end SvcAuth
