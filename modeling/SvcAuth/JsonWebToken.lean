import SvcAuth.TokenFormat

/-! The documented behaviour of `jsonwebtoken` 9.3.1 that the service builds on: how a
compact token is cut, which header algorithms are let through, and how registered claims
are validated. Claims are read twice from one payload: once into the caller's type, once
into the five registered claims, where a claim of the wrong type counts as unreadable.
The service takes any library that behaves so. -/
namespace SvcAuth.JsonWebToken

/-- The members named `f` of a document. -/
def occurrences (ms : List (String × Json)) (f : String) : List Json :=
  (ms.filter fun m => m.1 = f).map Prod.snd

/-- A field of a derived struct: repeated names are refused. -/
def field (ms : List (String × Json)) (f : String) : Option (Option Json) :=
  match occurrences ms f with
  | [] => some none
  | [v] => some (some v)
  | _ => none

/-- A field that must be there and must read as the field's type. -/
def required {T : Type} (ms : List (String × Json)) (f : String) (read : Json → Option T) :
    Option T :=
  match field ms f with
  | some (some v) => read v
  | _ => none

/-- `HashMap<String, Value>`: the last member of a name wins. -/
def lookup (ms : List (String × Json)) (f : String) : Option Json :=
  (occurrences ms f).getLast?

/-- A claim as validation sees it. -/
inductive TryParse (T : Type)
  | parsed (v : T)
  | failedToParse
  | notPresent
  deriving DecidableEq, Repr

def TryParse.Present {T : Type} : TryParse T → Prop
  | .parsed _ => True
  | _ => False

instance {T : Type} (c : TryParse T) : Decidable c.Present :=
  match c with
  | .parsed _ => .isTrue trivial
  | .failedToParse => .isFalse id
  | .notPresent => .isFalse id

/-- `exp` and `nbf`: an unsigned number, or a float rounded to one. -/
def numericType : Option Json → TryParse ℕ
  | none => .notPresent
  | some (.int i) => if 0 ≤ i ∧ i < 2 ^ 64 then .parsed i.toNat else .failedToParse
  | some (.float q) =>
    if 0 ≤ q ∧ q < 2 ^ 64 then .parsed ⌊q + 1 / 2⌋₊ else .failedToParse
  | some _ => .failedToParse

/-- `Option<T>::deserialize`: an explicit null is an absent claim. -/
def tryParse {T : Type} (read : Json → Option T) : Option Json → TryParse T
  | none => .notPresent
  | some .null => .notPresent
  | some v => match read v with
    | some t => .parsed t
    | none => .failedToParse

/-- One string, or an array all of whose items are strings. -/
def stringOrStrings : Json → Option (List String)
  | .str s => some [s]
  | .arr items => items.mapM Json.asStr
  | _ => none

structure ClaimsForValidation where
  exp : TryParse ℕ
  nbf : TryParse ℕ
  sub : TryParse String
  iss : TryParse (List String)
  aud : TryParse (List String)

def claimsForValidation (ms : List (String × Json)) : Option ClaimsForValidation := do
  let exp ← field ms "exp"
  let nbf ← field ms "nbf"
  let sub ← field ms "sub"
  let iss ← field ms "iss"
  let aud ← field ms "aud"
  return {
    exp := numericType exp
    nbf := numericType nbf
    sub := tryParse Json.asStr sub
    iss := tryParse stringOrStrings iss
    aud := tryParse stringOrStrings aud }

/-- The options of a validation that the service sets or leaves at their default. -/
structure Validation where
  algorithms : List Algorithm
  leeway : ℕ
  requiredSpecClaims : List String
  iss : Option (List String)
  aud : Option (List String)
  deriving DecidableEq, Repr

namespace Validation

def new (alg : Algorithm) : Validation :=
  { algorithms := [alg], leeway := 60, requiredSpecClaims := ["exp"], iss := none, aud := none }

/-- `Validation::default()`. -/
def default : Validation := new .HS256

def setIssuer (v : Validation) (items : List String) : Validation := { v with iss := some items }

def setAudience (v : Validation) (items : List String) : Validation :=
  { v with aud := some items }

def setRequiredSpecClaims (v : Validation) (items : List String) : Validation :=
  { v with requiredSpecClaims := items }

end Validation

/-- Only the five registered names are looked at; any other name is skipped. -/
def present (c : ClaimsForValidation) (name : String) : Bool :=
  if name = "exp" then c.exp.Present
  else if name = "sub" then c.sub.Present
  else if name = "iss" then c.iss.Present
  else if name = "aud" then c.aud.Present
  else if name = "nbf" then c.nbf.Present
  else true

/-- The first required claim that cannot be read. -/
def missingClaim (c : ClaimsForValidation) (v : Validation) : Option String :=
  v.requiredSpecClaims.find? fun name => !present c name

/-- `now - leeway` in unsigned 64 bits, where what would be below zero wraps. -/
def leewayStart (leeway now : ℕ) : ℕ :=
  if leeway ≤ now then now - leeway else now + 2 ^ 64 - leeway

def expired (c : ClaimsForValidation) (v : Validation) (now : ℕ) : Bool :=
  match c.exp with
  | .parsed e => e < leewayStart v.leeway now
  | _ => false

/-- A readable issuer must meet the expected ones; an unreadable one is skipped. -/
def issuerRefused (c : ClaimsForValidation) (v : Validation) : Bool :=
  match c.iss, v.iss with
  | .parsed given, some expected => !given.any fun s => s ∈ expected
  | _, _ => false

/-- A readable audience must meet the expected ones; an unreadable one is skipped. -/
def audienceRefused (c : ClaimsForValidation) (v : Validation) : Bool :=
  match c.aud, v.aud with
  | .parsed given, some expected => !given.any fun s => s ∈ expected
  | .parsed _, none => true
  | _, _ => false

def validate (c : ClaimsForValidation) (v : Validation) (now : ℕ) : Except ErrorKind Unit :=
  match missingClaim c v with
  | some name => .error (.MissingRequiredClaim name)
  | none =>
    if expired c v now then .error .ExpiredSignature
    else if issuerRefused c v then .error .InvalidIssuer
    else if audienceRefused c v then .error .InvalidAudience
    else .ok ()

theorem leewayStart_eq {leeway now : ℕ} (h : leeway ≤ now) :
    leewayStart leeway now = now - leeway :=
  if_pos h

theorem le_leewayStart (leeway now : ℕ) : now ≤ leewayStart leeway now + leeway := by
  unfold leewayStart
  split
  · omega
  · omega

/-- `split('.')`. -/
def splitDots (s : String) : List String := (s.toList.splitOn '.').map String.ofList

/-- The last dot-separated piece and everything before it. -/
def rsplitDot (s : String) : Option (String × String) :=
  match (s.toList.splitOn '.').reverse with
  | last :: piece :: rest =>
    some (String.ofList last, String.ofList (['.'].intercalate (piece :: rest).reverse))
  | _ => none

/-- The encodings and the primitives below the library: base64url, the JSON of claims and
headers, and signatures. -/
structure Codecs where
  b64Encode : Bytes → String
  b64Decode : String → Option Bytes
  b64Decode_encode : ∀ b, b64Decode (b64Encode b) = some b
  b64Encode_dotless : ∀ b, '.' ∉ (b64Encode b).toList
  /-- `serde_json` on an object, members in order. -/
  toJson : List (String × Json) → Bytes
  fromJson : Bytes → Option (List (String × Json))
  fromJson_toJson : ∀ ms : List (String × Json), (∀ m ∈ ms, m.2.Scalar) →
    fromJson (toJson ms) = some ms
  headerToJson : Header → Bytes
  headerFromJson : Bytes → Option Header
  headerFromJson_toJson : ∀ h, headerFromJson (headerToJson h) = some h
  cryptoSign : EncodingKey → Algorithm → String → String
  cryptoVerify : String → String → DecodingKey → Algorithm → Bool
  cryptoSign_dotless : ∀ k a m, '.' ∉ (cryptoSign k a m).toList
  /-- HMAC accepts what it signed under the same secret. -/
  cryptoVerify_sign : ∀ secret m,
    cryptoVerify (cryptoSign (.fromSecret secret) .HS256 m) m (.fromSecret secret) .HS256 = true

section Documented
variable (C : Codecs)

/-- `decode_header`. -/
def decodeHeader (token : String) : Except ErrorKind Header :=
  match rsplitDot token with
  | none => .error .InvalidToken
  | some (_, message) =>
    match rsplitDot message with
    | none => .error .InvalidToken
    | some (_, header) =>
      match C.b64Decode header with
      | none => .error .Base64
      | some bytes =>
        match C.headerFromJson bytes with
        | none => .error .Json
        | some h => .ok h

/-- The header and the payload segment of a token whose signature holds. -/
def verifySignature (token : String) (key : DecodingKey) (v : Validation) :
    Except ErrorKind (Header × String) :=
  if v.algorithms.any fun alg => key.family ≠ alg.family then .error .InvalidAlgorithm
  else match rsplitDot token with
  | none => .error .InvalidToken
  | some (signature, message) =>
    match rsplitDot message with
    | none => .error .InvalidToken
    | some (payload, _) =>
      match decodeHeader C token with
      | .error e => .error e
      | .ok header =>
        if header.alg ∉ v.algorithms then .error .InvalidAlgorithm
        else if C.cryptoVerify signature message key header.alg then .ok (header, payload)
        else .error .InvalidSignature

/-- The claims are read as the caller's type and validated at clock reading `now`. -/
def claimsVerdict {T : Type} (read : List (String × Json) → Option T) (v : Validation) (now : ℕ)
    (ms : List (String × Json)) : Except ErrorKind T :=
  match read ms, claimsForValidation ms with
  | some t, some c =>
    match validate c v now with
    | .error e => .error e
    | .ok () => .ok t
  | _, _ => .error .Json

/-- `decode::<T>` at clock reading `now`; `read` is the deserializer of `T`. -/
def decode {T : Type} (read : List (String × Json) → Option T) (token : String)
    (key : DecodingKey) (v : Validation) (now : ℕ) : Except ErrorKind T :=
  match verifySignature C token key v with
  | .error e => .error e
  | .ok (_, payload) =>
    match C.b64Decode payload with
    | none => .error .Base64
    | some bytes =>
      match C.fromJson bytes with
      | none => .error .Json
      | some ms => claimsVerdict read v now ms

/-- `encode`: header and claims as base64url JSON, then the signature over both. -/
def encode (header : Header) (ms : List (String × Json)) (key : EncodingKey) :
    Except ErrorKind String :=
  if key.family ≠ header.alg.family then .error .InvalidAlgorithm
  else
    let message := C.b64Encode (C.headerToJson header) ++ "." ++ C.b64Encode (C.toJson ms)
    .ok (message ++ "." ++ C.cryptoSign key header.alg message)

/-- These are the claims of a token whose signature holds. -/
def Carries (token : String) (key : DecodingKey) (v : Validation) (ms : List (String × Json)) :
    Prop :=
  ∃ header payload bytes, verifySignature C token key v = .ok (header, payload) ∧
    C.b64Decode payload = some bytes ∧ C.fromJson bytes = some ms

end Documented

private theorem not_mem_of_mem_splitOn {c : Char} {xs l : List Char}
    (hl : l ∈ xs.splitOn c) : c ∉ l := by
  induction xs generalizing l with
  | nil => simp_all
  | cons x xs ih =>
    rw [List.splitOn_cons_eq_if_modifyHead] at hl
    split at hl
    · rcases List.mem_cons.mp hl with rfl | hl
      · simp
      · exact ih hl
    · rename_i hx
      obtain ⟨y, ys, hy⟩ := List.exists_cons_of_ne_nil (List.splitOn_ne_nil c xs)
      rw [hy, List.modifyHead_cons] at hl
      rcases List.mem_cons.mp hl with rfl | hl
      · have hyc : c ∉ y := ih (by simp [hy])
        rw [List.mem_cons, not_or]
        exact ⟨fun h => hx (by simp [h]), hyc⟩
      · exact ih (by simp [hy, hl])

theorem rsplitDot_append {m s : String} (hs : '.' ∉ s.toList) :
    rsplitDot (m ++ "." ++ s) = some (s, m) := by
  have hsplit : (m ++ "." ++ s).toList.splitOn '.' = m.toList.splitOn '.' ++ [s.toList] := by
    rw [String.toList_append, String.toList_append, List.append_assoc]
    rw [← List.splitOn_eq_singleton hs]
    exact List.splitOn_append_cons_self _ _
  have hne : (m.toList.splitOn '.').reverse ≠ [] := by simp [List.splitOn_ne_nil]
  obtain ⟨piece, rest, hrev⟩ := List.exists_cons_of_ne_nil hne
  have hback : (piece :: rest).reverse = m.toList.splitOn '.' := by
    rw [← hrev, List.reverse_reverse]
  unfold rsplitDot
  rw [hsplit, List.reverse_append, List.reverse_singleton, List.singleton_append, hrev]
  simp only [hback, List.intercalate_splitOn, String.ofList_toList]

/-- A token of three dot-free segments, as `encode` builds it. -/
def compact (h p s : String) : String := h ++ "." ++ p ++ "." ++ s

theorem rsplitDot_compact {h p s : String} (hs : '.' ∉ s.toList) :
    rsplitDot (compact h p s) = some (s, h ++ "." ++ p) :=
  rsplitDot_append hs

theorem splitDots_eq_three {t h p s : String} (ht : splitDots t = [h, p, s]) :
    t = compact h p s ∧ '.' ∉ p.toList ∧ '.' ∉ s.toList := by
  obtain ⟨x, xs, hx, rfl, hxs⟩ := List.map_eq_cons_iff.mp ht
  obtain ⟨y, ys, hy, rfl, hys⟩ := List.map_eq_cons_iff.mp hxs
  obtain ⟨z, zs, hz, rfl, hzs⟩ := List.map_eq_cons_iff.mp hys
  rw [List.map_eq_nil_iff] at hzs
  subst hy hz hzs
  have hjoin : ['.'].intercalate [x, y, z] = t.toList := by
    rw [← hx]
    exact List.intercalate_splitOn '.'
  have hmem : ∀ l ∈ [x, y, z], '.' ∉ l := by
    rw [← hx]
    exact fun l hl => not_mem_of_mem_splitOn hl
  refine ⟨?_, by simpa using hmem y (by simp), by simpa using hmem z (by simp)⟩
  rw [← String.toList_inj, ← hjoin]
  simp [compact, List.intercalate]

theorem splitDots_compact {h p s : String} (hh : '.' ∉ h.toList) (hp : '.' ∉ p.toList)
    (hs : '.' ∉ s.toList) : splitDots (compact h p s) = [h, p, s] := by
  have hjoin : (compact h p s).toList = h.toList ++ '.' :: (p.toList ++ '.' :: s.toList) := by
    simp [compact]
  simp only [splitDots, hjoin, List.splitOn_append_cons_self, List.splitOn_eq_singleton hh,
    List.splitOn_eq_singleton hp, List.splitOn_eq_singleton hs, List.singleton_append,
    List.map_cons, List.map_nil, String.ofList_toList]

section Accepting
variable {C : Codecs} {token : String} {key : DecodingKey} {v : Validation} {now : ℕ}

theorem lookup_of_field {ms : List (String × Json)} {f : String} {o : Option Json}
    (h : field ms f = some o) : lookup ms f = o := by
  unfold field at h
  unfold lookup
  split at h
  · rename_i hnone
    cases h
    rw [hnone, List.getLast?_nil]
  · rename_i value hone
    cases h
    rw [hone, List.getLast?_singleton]
  · cases h

theorem decodeHeader_compact {head body signature : String} (hb : '.' ∉ body.toList)
    (hs : '.' ∉ signature.toList) : decodeHeader C (compact head body signature) =
      match C.b64Decode head with
      | none => .error .Base64
      | some bytes =>
        match C.headerFromJson bytes with
        | none => .error .Json
        | some h => .ok h := by
  unfold decodeHeader
  rw [rsplitDot_compact hs]
  simp only
  rw [rsplitDot_append hb]

/-- What a token of three segments was checked for when its signature is accepted. -/
theorem verifySignature_compact {head body signature : String} (hb : '.' ∉ body.toList)
    (hs : '.' ∉ signature.toList) {header : Header} {payload : String}
    (h : verifySignature C (compact head body signature) key v = .ok (header, payload)) :
    payload = body ∧ decodeHeader C (compact head body signature) = .ok header ∧
      header.alg ∈ v.algorithms ∧ (∀ alg ∈ v.algorithms, key.family = alg.family) ∧
      C.cryptoVerify signature (head ++ "." ++ body) key header.alg = true := by
  unfold verifySignature at h
  split at h
  · cases h
  · rename_i hfamily
    rw [rsplitDot_compact hs] at h
    simp only at h
    rw [rsplitDot_append hb] at h
    simp only at h
    split at h
    · cases h
    · rename_i header' hheader
      split at h
      · cases h
      · rename_i halg
        split at h
        · rename_i hverify
          cases h
          simp only [not_not] at halg
          refine ⟨rfl, hheader, halg, fun alg hmem => ?_, hverify⟩
          by_contra hne
          exact hfamily (List.any_eq_true.mpr ⟨alg, hmem, by simpa using hne⟩)
        · cases h

theorem claimsVerdict_ok {T : Type} {read : List (String × Json) → Option T}
    {ms : List (String × Json)} {t : T} (h : claimsVerdict read v now ms = .ok t) :
    ∃ c, read ms = some t ∧ claimsForValidation ms = some c ∧ validate c v now = .ok () := by
  unfold claimsVerdict at h
  split at h
  · rename_i t' c hread hc
    split at h
    · cases h
    · rename_i hvalid
      cases h
      exact ⟨c, hread, hc, hvalid⟩
  · cases h

theorem validate_ok {c : ClaimsForValidation} (h : validate c v now = .ok ()) :
    missingClaim c v = none ∧ expired c v now = false ∧ issuerRefused c v = false ∧
      audienceRefused c v = false := by
  unfold validate at h
  split at h
  · cases h
  · rename_i hmissing
    cases hexp : expired c v now <;> cases hiss : issuerRefused c v <;>
      cases haud : audienceRefused c v <;> simp_all

theorem claimsForValidation_fields {ms : List (String × Json)} {c : ClaimsForValidation}
    (h : claimsForValidation ms = some c) : c.exp = numericType (lookup ms "exp") ∧
      c.aud = tryParse stringOrStrings (lookup ms "aud") := by
  simp only [claimsForValidation, Option.bind_eq_bind, Option.bind_eq_some_iff] at h
  obtain ⟨exp, hexp, nbf, -, sub, -, iss, -, aud, haud, hc⟩ := h
  cases hc
  rw [lookup_of_field hexp, lookup_of_field haud]
  exact ⟨rfl, rfl⟩

end Accepting

section Signed
variable (C : Codecs)

/-- What `encode` builds under a secret. -/
def Codecs.signedToken (header : Header) (ms : List (String × Json)) (secret : String) : String :=
  let head := C.b64Encode (C.headerToJson header)
  let payload := C.b64Encode (C.toJson ms)
  compact head payload (C.cryptoSign (.fromSecret secret) header.alg (head ++ "." ++ payload))

/-- The same with the default header. -/
def Codecs.hmacToken (ms : List (String × Json)) (secret : String) : String :=
  C.signedToken .default ms secret

theorem Codecs.hmacToken_ne_empty (ms : List (String × Json)) (secret : String) :
    C.hmacToken ms secret ≠ "" := by
  intro h
  have hlen := congrArg (fun s => s.toList.length) h
  simp [hmacToken, signedToken, compact] at hlen

theorem decodeHeader_signedToken (header : Header) (ms : List (String × Json)) (secret : String) :
    decodeHeader C (C.signedToken header ms secret) = .ok header := by
  rw [Codecs.signedToken, decodeHeader_compact (C.b64Encode_dotless _) (C.cryptoSign_dotless _ _ _)]
  simp [C.b64Decode_encode, C.headerFromJson_toJson]

/-- A token signed under the secret gets past the signature, whatever the options ask
of its claims. -/
theorem verifySignature_signedToken {header : Header} (halg : header.alg = .HS256)
    (ms : List (String × Json)) (secret : String) {v : Validation}
    (hv : v.algorithms = [.HS256]) :
    verifySignature C (C.signedToken header ms secret) (.fromSecret secret) v =
      .ok (header, C.b64Encode (C.toJson ms)) := by
  have hcut : rsplitDot (C.signedToken header ms secret) = _ :=
    rsplitDot_compact (C.cryptoSign_dotless _ _ _)
  have hcut' := rsplitDot_append (m := C.b64Encode (C.headerToJson header))
    (C.b64Encode_dotless (C.toJson ms))
  have hheader := decodeHeader_signedToken C header ms secret
  have hfamily : (DecodingKey.fromSecret secret).family = Algorithm.HS256.family := rfl
  simp [verifySignature, hv, hcut, hcut', hheader, hfamily, halg, C.cryptoVerify_sign]

theorem carries_signedToken {header : Header} (halg : header.alg = .HS256)
    {ms : List (String × Json)} (hms : ∀ m ∈ ms, m.2.Scalar) (secret : String) {v : Validation}
    (hv : v.algorithms = [.HS256]) :
    Carries C (C.signedToken header ms secret) (.fromSecret secret) v ms :=
  ⟨header, _, _, verifySignature_signedToken C halg ms secret hv, C.b64Decode_encode _,
    C.fromJson_toJson ms hms⟩

/-- A token needs dots. -/
theorem carries_empty {key : DecodingKey} {v : Validation} {ms : List (String × Json)} :
    ¬ Carries C "" key v ms := by
  rintro ⟨header, payload, bytes, hsig, -⟩
  have hcut : rsplitDot "" = none := by decide
  unfold verifySignature at hsig
  rw [hcut] at hsig
  split at hsig
  · cases hsig
  · cases hsig

end Signed

/-- A library to take tokens from. It reads the headers and verifies the signatures that are
documented to be read and verified, judges the claims by the documented rules, and signs under
a secret; how it says no to anything else is open. -/
structure Library extends Codecs where
  decodeHeader : String → Except ErrorKind Header
  decode : {T : Type} → (List (String × Json) → Option T) → String → DecodingKey → Validation → ℕ →
    Except ErrorKind T
  encode : Header → List (String × Json) → EncodingKey → Except ErrorKind String
  decodeHeader_ok : ∀ {token header}, decodeHeader token = .ok header ↔
    JsonWebToken.decodeHeader toCodecs token = .ok header
  decode_carried : ∀ {T : Type} {token key v ms} (read : List (String × Json) → Option T) (now),
    Carries toCodecs token key v ms → decode read token key v now = claimsVerdict read v now ms
  carried_of_decode : ∀ {T : Type} {read : List (String × Json) → Option T} {token key v now t},
    decode read token key v now = .ok t → ∃ ms, Carries toCodecs token key v ms
  encode_secret : ∀ header ms secret, header.alg.family = .Hmac →
    encode header ms (.fromSecret secret) = .ok (toCodecs.signedToken header ms secret)

namespace Library

/-- The library as it is documented. -/
def documented (C : Codecs) : Library where
  toCodecs := C
  decodeHeader := JsonWebToken.decodeHeader C
  decode := JsonWebToken.decode C
  encode := JsonWebToken.encode C
  decodeHeader_ok := Iff.rfl
  decode_carried read now h := by
    obtain ⟨header, payload, bytes, hsig, hbytes, hms⟩ := h
    simp only [JsonWebToken.decode, hsig, hbytes, hms]
  carried_of_decode h := by
    unfold JsonWebToken.decode at h
    split at h
    · cases h
    · rename_i header payload hsig
      split at h
      · cases h
      · rename_i bytes hbytes
        split at h
        · cases h
        · rename_i ms hms
          exact ⟨ms, header, payload, bytes, hsig, hbytes, hms⟩
  encode_secret header ms secret h := by
    have hfamily : (EncodingKey.fromSecret secret).family = header.alg.family := h.symm
    rw [JsonWebToken.encode, if_neg (not_not_intro hfamily)]
    rfl

variable (L : Library)

theorem decodeHeader_signedToken (header : Header) (ms : List (String × Json)) (secret : String) :
    L.decodeHeader (L.signedToken header ms secret) = .ok header :=
  L.decodeHeader_ok.mpr (JsonWebToken.decodeHeader_signedToken L.toCodecs header ms secret)

theorem decodeHeader_hmacToken (ms : List (String × Json)) (secret : String) :
    L.decodeHeader (L.hmacToken ms secret) = .ok .default :=
  L.decodeHeader_signedToken _ ms secret

/-- Decoding a token signed under the secret comes down to reading and validating the
claims that were signed. -/
theorem decode_signedToken {T : Type} (read : List (String × Json) → Option T) {header : Header}
    (halg : header.alg = .HS256) {ms : List (String × Json)} (hms : ∀ m ∈ ms, m.2.Scalar)
    (secret : String) {v : Validation} (hv : v.algorithms = [.HS256]) (now : ℕ) :
    L.decode read (L.signedToken header ms secret) (.fromSecret secret) v now =
      claimsVerdict read v now ms :=
  L.decode_carried read now (carries_signedToken L.toCodecs halg hms secret hv)

theorem decode_hmacToken {T : Type} (read : List (String × Json) → Option T)
    {ms : List (String × Json)} (hms : ∀ m ∈ ms, m.2.Scalar) (secret : String) {v : Validation}
    (hv : v.algorithms = [.HS256]) (now : ℕ) :
    L.decode read (L.hmacToken ms secret) (.fromSecret secret) v now =
      claimsVerdict read v now ms :=
  L.decode_signedToken read rfl hms secret hv now

variable {L} {T : Type} {read : List (String × Json) → Option T} {token : String}
  {key : DecodingKey} {v : Validation} {now : ℕ} {t : T}

/-- What is accepted was signed, and its claims validate. -/
theorem decode_ok (h : L.decode read token key v now = .ok t) : ∃ header payload bytes ms c,
    verifySignature L.toCodecs token key v = .ok (header, payload) ∧
      L.b64Decode payload = some bytes ∧ L.fromJson bytes = some ms ∧ read ms = some t ∧
      claimsForValidation ms = some c ∧ validate c v now = .ok () := by
  obtain ⟨ms, hcarries⟩ := L.carried_of_decode h
  rw [L.decode_carried read now hcarries] at h
  obtain ⟨c, hread, hc, hvalid⟩ := claimsVerdict_ok h
  obtain ⟨header, payload, bytes, hsig, hbytes, hms⟩ := hcarries
  exact ⟨header, payload, bytes, ms, c, hsig, hbytes, hms, hread, hc, hvalid⟩

theorem decode_ne_empty (h : L.decode read token key v now = .ok t) : token ≠ "" := by
  rintro rfl
  obtain ⟨ms, hcarries⟩ := L.carried_of_decode h
  exact carries_empty L.toCodecs hcarries

end Library

end SvcAuth.JsonWebToken
