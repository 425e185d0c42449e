import SvcAuth.JsonWebToken
import SvcAuth.RefreshStore
import SvcAuth.StandardBase64
import SvcAuth.TextFormats

/-! The crate `br-auth-contract`: bearer entries sealed under a key that the publishers
share with the service, each bound to its token, and where they are stored. -/
namespace SvcAuth
open Interleave StandardBase64 TextFormats

structure BearerSealKey where
  bytes : Bytes
  size : bytes.length = 32
  deriving DecidableEq, Repr

structure Nonce where
  bytes : Bytes
  size : bytes.length = 12
  deriving DecidableEq, Repr

inductive AuthContractError
  | InvalidKeyLength (length : ℕ)
  | NonceNotBase64
  | CiphertextNotBase64
  | InvalidNonceLength (length : ℕ)
  | Serialize (message : String)
  | AeadFailed
  | Deserialize (message : String)
  deriving DecidableEq, Repr

def AuthContractError.toString : AuthContractError → String
  | .InvalidKeyLength length => "seal key must be 32 bytes, got " ++ ToString.toString length
  | .NonceNotBase64 => "sealed nonce is not valid base64"
  | .CiphertextNotBase64 => "sealed ciphertext is not valid base64"
  | .InvalidNonceLength length => "sealed nonce must be 12 bytes, got " ++ ToString.toString length
  | .Serialize message => "serializing the bearer entry failed: " ++ message
  | .AeadFailed => "the sealed bearer could not be opened (wrong key or tampered ciphertext)"
  | .Deserialize message => "the opened plaintext is not a valid bearer entry: " ++ message

def BearerSealKey.fromBytes (bytes : Bytes) : Except AuthContractError BearerSealKey :=
  if size : bytes.length = 32 then .ok ⟨bytes, size⟩
  else .error (.InvalidKeyLength bytes.length)

/-- What the wire takes from other crates: the token hash, the AEAD, and the JSON of
entries and of stored values, each with the laws that are documented of it. -/
structure ContractDeps extends Deps where
  /-- `br_core_auth::bearer_token_key`. -/
  bearerTokenKey : String → String
  kvKeyNew_bearer : ∀ token, kvKeyNew ("identity/bearer_tokens/" ++ bearerTokenKey token) =
    .ok ⟨"identity/bearer_tokens/" ++ bearerTokenKey token⟩
  /-- ChaCha20-Poly1305 by key, nonce and associated data. -/
  encrypt : BearerSealKey → Nonce → Bytes → Bytes → Option Bytes
  decrypt : BearerSealKey → Nonce → Bytes → Bytes → Option Bytes
  decrypt_encrypt : ∀ {key nonce aad msg ciphertext},
    encrypt key nonce aad msg = some ciphertext → decrypt key nonce aad ciphertext = some msg
  entryToJson : BearerEntry → Except String Bytes
  entryFromJson : Bytes → Except String BearerEntry
  entryFromJson_toJson : ∀ {entry json}, entryToJson entry = .ok json →
    entryFromJson json = .ok entry
  valueToJson : Json → Bytes
  valueFromJson : Bytes → Option Json
  valueFromJson_toJson : ∀ ms : List (String × Json), (∀ m ∈ ms, m.2.Scalar) →
    valueFromJson (valueToJson (.obj ms)) = some (.obj ms)

structure SealedBearer where
  nonce : String
  ciphertext : String
  deriving DecidableEq, Repr

/-- The calls of the parties at the bearers: those of the service, the random source of the
publishers, and the published-language bucket. -/
inductive WireOp
  | service (o : Op)
  | generateNonce
  | get (key : KvKey)
  | put (key : KvKey) (value : SealedBearer)
  | retract (key : KvKey)
  deriving DecidableEq, Repr

def WireOp.Reply : WireOp → Type
  | .service o => o.Reply
  | .generateNonce => Nonce
  | .get _ => Except FabricError (Option SealedBearer)
  | .put _ _ => Except FabricError Unit
  | .retract _ => Except FabricError Unit

abbrev WireCalls : Sig := ⟨WireOp, WireOp.Reply⟩

abbrev WireAction := Prog WireCalls

def generateNonce : WireAction Nonce := .op (S := WireCalls) .generateNonce

variable (W : ContractDeps)

def bearerTokenKvKey (token : String) : String :=
  "identity/bearer_tokens/" ++ W.bearerTokenKey token

/-- The hash of the token as associated data. -/
def tokenAad (token : String) : Bytes := utf8 (W.bearerTokenKey token)

section Serde

/-- The serializer of the derived struct. -/
def SealedBearer.toJson (sealed : SealedBearer) : Json :=
  .obj [("nonce", .str sealed.nonce), ("ciphertext", .str sealed.ciphertext)]

/-- The deserializer: of an object without other fields, or of an array in field order. -/
def SealedBearer.ofJson : Json → Option SealedBearer
  | .obj ms =>
    if ms.all fun m => m.1 = "nonce" ∨ m.1 = "ciphertext" then do
      let nonce ← JsonWebToken.required ms "nonce" Json.asStr
      let ciphertext ← JsonWebToken.required ms "ciphertext" Json.asStr
      return ⟨nonce, ciphertext⟩
    else none
  | .arr [.str nonce, .str ciphertext] => some ⟨nonce, ciphertext⟩
  | _ => none

/-- A value of the bucket. -/
def SealedBearer.store (sealed : SealedBearer) : Bytes := W.valueToJson sealed.toJson

def SealedBearer.load (bytes : Bytes) : Option SealedBearer :=
  W.valueFromJson bytes >>= SealedBearer.ofJson

theorem SealedBearer.ofJson_toJson (sealed : SealedBearer) : ofJson sealed.toJson = some sealed := by
  simp [ofJson, toJson, JsonWebToken.required, JsonWebToken.field, JsonWebToken.occurrences,
    Json.asStr]

@[simp] theorem SealedBearer.load_store (sealed : SealedBearer) :
    load W (sealed.store W) = some sealed := by
  have hscalar : ∀ m ∈ [("nonce", Json.str sealed.nonce), ("ciphertext", .str sealed.ciphertext)],
      m.2.Scalar := by simp [Json.Scalar]
  rw [load, store, toJson, W.valueFromJson_toJson _ hscalar]
  exact ofJson_toJson sealed

end Serde

section Seal

/-- The envelope around a ciphertext. -/
def envelope (nonce : Nonce) (ciphertext : Bytes) : SealedBearer :=
  ⟨encode nonce.bytes, encode ciphertext⟩

theorem envelope_inj {nonce nonce' : Nonce} {ciphertext ciphertext' : Bytes}
    (h : envelope nonce ciphertext = envelope nonce' ciphertext') :
    nonce = nonce' ∧ ciphertext = ciphertext' := by
  obtain ⟨hnonce, hciphertext⟩ := SealedBearer.mk.inj h
  rw [encode_inj] at hnonce hciphertext
  obtain ⟨bytes, size⟩ := nonce
  obtain ⟨bytes', size'⟩ := nonce'
  cases hnonce
  exact ⟨rfl, hciphertext⟩

/-- `seal` from the encryption on. -/
def sealPlaintext (key : BearerSealKey) (token : String) (nonce : Nonce) (plaintext : Bytes) :
    Except AuthContractError SealedBearer :=
  match W.encrypt key nonce (tokenAad W token) plaintext with
  | none => .error .AeadFailed
  | some ciphertext => .ok (envelope nonce ciphertext)

def SealedBearer.seal (key : BearerSealKey) (token : String) (entry : BearerEntry) :
    WireAction (Except AuthContractError SealedBearer) :=
  match W.entryToJson entry with
  | .error e => return .error (.Serialize e)
  | .ok plaintext => do
    let nonce ← generateNonce
    return sealPlaintext W key token nonce plaintext

/-- `open` up to the decryption. -/
def openPlaintext (key : BearerSealKey) (token : String) (sealed : SealedBearer) :
    Except AuthContractError Bytes :=
  match W.standardDecode sealed.nonce with
  | none => .error .NonceNotBase64
  | some nonceBytes =>
    if size : nonceBytes.length = 12 then
      match W.standardDecode sealed.ciphertext with
      | none => .error .CiphertextNotBase64
      | some ciphertext =>
        match W.decrypt key ⟨nonceBytes, size⟩ (tokenAad W token) ciphertext with
        | none => .error .AeadFailed
        | some plaintext => .ok plaintext
    else .error (.InvalidNonceLength nonceBytes.length)

/-- `open`. -/
def SealedBearer.open (key : BearerSealKey) (token : String) (sealed : SealedBearer) :
    Except AuthContractError BearerEntry :=
  match openPlaintext W key token sealed with
  | .error e => .error e
  | .ok plaintext => (W.entryFromJson plaintext).mapError .Deserialize

variable {W} {key : BearerSealKey} {token : String} {entry : BearerEntry} {sealed : SealedBearer}

theorem openPlaintext_ok {plaintext : Bytes} : openPlaintext W key token sealed = .ok plaintext ↔
    ∃ nonce ciphertext, sealed = envelope nonce ciphertext ∧
      W.decrypt key nonce (tokenAad W token) ciphertext = some plaintext := by
  constructor
  · intro h
    unfold openPlaintext at h
    split at h
    · cases h
    · rename_i nonceBytes hnonce
      split at h
      · rename_i size
        split at h
        · cases h
        · rename_i ciphertext hciphertext
          split at h
          · cases h
          · rename_i opened hopened
            cases h
            refine ⟨⟨nonceBytes, size⟩, ciphertext, ?_, hopened⟩
            rw [envelope, W.standardDecode_iff.mp hnonce, W.standardDecode_iff.mp hciphertext]
      · cases h
  · rintro ⟨nonce, ciphertext, rfl, hopened⟩
    simp [openPlaintext, envelope, nonce.size, hopened]

theorem open_ok : SealedBearer.open W key token sealed = .ok entry ↔
    ∃ plaintext, openPlaintext W key token sealed = .ok plaintext ∧
      W.entryFromJson plaintext = .ok entry := by
  unfold SealedBearer.open
  cases openPlaintext W key token sealed with
  | error e => simp
  | ok plaintext => cases h : W.entryFromJson plaintext <;> simp [h, Except.mapError]

theorem sealPlaintext_ok {nonce : Nonce} {plaintext : Bytes} :
    sealPlaintext W key token nonce plaintext = .ok sealed ↔ ∃ ciphertext,
      W.encrypt key nonce (tokenAad W token) plaintext = some ciphertext ∧
        sealed = envelope nonce ciphertext := by
  unfold sealPlaintext
  cases W.encrypt key nonce (tokenAad W token) plaintext with
  | none => simp
  | some ciphertext => simp [eq_comm]

theorem generateNonce_bind {α : Type} (f : Nonce → WireAction α) :
    generateNonce >>= f = .call .generateNonce f := rfl

/-- A seal draws one nonce, unless the entry has no JSON. -/
theorem seal_ran {tr : List WireCalls.Event} {result : Except AuthContractError SealedBearer}
    (h : Prog.Ran (SealedBearer.seal W key token entry) tr result) :
    (∃ e, W.entryToJson entry = .error e ∧ tr = [] ∧ result = .error (.Serialize e)) ∨
    ∃ json nonce, W.entryToJson entry = .ok json ∧ tr = [⟨.generateNonce, nonce⟩] ∧
      result = sealPlaintext W key token nonce json := by
  unfold SealedBearer.seal at h
  split at h
  · rename_i e he
    obtain ⟨rfl, rfl⟩ := Prog.ran_ret.mp h
    exact .inl ⟨e, he, rfl, rfl⟩
  · rename_i json hjson
    rw [generateNonce_bind] at h
    obtain ⟨nonce, rest, rfl, h₁⟩ := Prog.ran_call.mp h
    obtain ⟨rfl, rfl⟩ := Prog.ran_ret.mp h₁
    exact .inr ⟨json, nonce, hjson, rfl, rfl⟩

theorem ran_seal {json : Bytes} (hjson : W.entryToJson entry = .ok json) (nonce : Nonce) :
    Prog.Ran (SealedBearer.seal W key token entry) [⟨.generateNonce, nonce⟩]
      (sealPlaintext W key token nonce json) := by
  simp only [SealedBearer.seal, hjson, generateNonce_bind]
  exact .call (.ret _)

theorem openPlaintext_sealed {nonce : Nonce} {plaintext : Bytes}
    (h : sealPlaintext W key token nonce plaintext = .ok sealed) :
    openPlaintext W key token sealed = .ok plaintext := by
  obtain ⟨ciphertext, hciphertext, rfl⟩ := sealPlaintext_ok.mp h
  exact openPlaintext_ok.mpr ⟨nonce, ciphertext, rfl, W.decrypt_encrypt hciphertext⟩

theorem open_sealed {json : Bytes} {nonce : Nonce} (hjson : W.entryToJson entry = .ok json)
    (hsealed : sealPlaintext W key token nonce json = .ok sealed) :
    SealedBearer.open W key token sealed = .ok entry :=
  open_ok.mpr ⟨json, openPlaintext_sealed hsealed, W.entryFromJson_toJson hjson⟩

end Seal

end SvcAuth
