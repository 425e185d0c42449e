import SvcAuth.SampleContract

/-! The bearer wire as the Go anchor implements it, next to the crate. The two share the
cipher and the hash but not the reader of base64, so they open the same envelopes as long
as the fields are canonical. -/
namespace SvcAuth
open Interleave StandardBase64 TextFormats HmacSha256

/-- `golang.org/x/crypto/chacha20poly1305`, by key, nonce, text and additional data. -/
structure GoAead where
  Seal : Bytes → Bytes → Bytes → Bytes → Bytes
  Open : Bytes → Bytes → Bytes → Bytes → Option Bytes

section Anchor
variable (G : GoAead)

/-- `hex.EncodeToString`. -/
def hexEncodeToString (bs : Bytes) : String := .ofList (bs.flatMap fun b => hexDigits 2 b.toNat)

def bearerTokenHash (token : String) : String := hexEncodeToString (sha256 (utf8 token))

def bearerTokenKVKey (token : String) : String :=
  "identity/bearer_tokens/" ++ bearerTokenHash token

/-- `sealBearer`, by what `rand.Read` gave. -/
def sealBearer (key : Bytes) (drawn : Except String Nonce) (token : String) (plaintext : Bytes) :
    Except String SealedBearer :=
  if key.length ≠ 32 then .error "seal key must be 32 bytes"
  else match drawn with
  | .error e => .error e
  | .ok nonce =>
    let ciphertext := G.Seal key nonce.bytes plaintext (utf8 (bearerTokenHash token))
    .ok (envelope nonce ciphertext)

def openBearer (key : Bytes) (token : String) (sealed : SealedBearer) : Except String Bytes :=
  if key.length ≠ 32 then .error "seal key must be 32 bytes"
  else match decodeLax sealed.nonce with
  | none => .error "nonce is not base64"
  | some nonce =>
    match decodeLax sealed.ciphertext with
    | none => .error "ciphertext is not base64"
    | some ciphertext =>
      if nonce.length ≠ 12 then .error "nonce length mismatch"
      else match G.Open key nonce ciphertext (utf8 (bearerTokenHash token)) with
      | none => .error "chacha20poly1305: message authentication failed"
      | some plaintext => .ok plaintext

variable {G} {key : BearerSealKey} {token : String} {sealed : SealedBearer} {plaintext : Bytes}

theorem openBearer_ok : openBearer G key.bytes token sealed = .ok plaintext ↔
    ∃ (nonce : Nonce) (ciphertext : Bytes), decodeLax sealed.nonce = some nonce.bytes ∧
      decodeLax sealed.ciphertext = some ciphertext ∧
      G.Open key.bytes nonce.bytes ciphertext (utf8 (bearerTokenHash token)) = some plaintext := by
  constructor
  · intro h
    unfold openBearer at h
    rw [if_neg (not_not.mpr key.size)] at h
    split at h
    · cases h
    · rename_i nonce hnonce
      split at h
      · cases h
      · rename_i ciphertext hciphertext
        split at h
        · cases h
        · rename_i hlength
          split at h
          · cases h
          · rename_i opened hopened
            cases h
            exact ⟨⟨nonce, not_not.mp hlength⟩, ciphertext, hnonce, hciphertext, hopened⟩
  · rintro ⟨nonce, ciphertext, hnonce, hciphertext, hopened⟩
    simp [openBearer, key.size, hnonce, hciphertext, nonce.size, hopened]

end Anchor

/-- Both sides use the same hash and the same cipher, and the cipher opens what it sealed. -/
structure AnchorAgrees (W : ContractDeps) (G : GoAead) : Prop where
  hash : ∀ token, W.bearerTokenKey token = bearerTokenHash token
  open_eq : ∀ (key : BearerSealKey) (nonce : Nonce) (ciphertext aad : Bytes),
    G.Open key.bytes nonce.bytes ciphertext aad = W.decrypt key nonce aad ciphertext
  open_seal : ∀ (key : BearerSealKey) (nonce : Nonce) (plaintext aad : Bytes),
    G.Open key.bytes nonce.bytes (G.Seal key.bytes nonce.bytes plaintext aad) aad = some plaintext

/-- Texts from this length on have more blocks than the counter of 32 bits can number. -/
def plaintextLimit : ℕ := 64 * (2 ^ 32 - 1)

/-- What is not too long both sides encrypt, and alike. -/
structure SealersAgree (W : ContractDeps) (G : GoAead) : Prop extends AnchorAgrees W G where
  seal_eq : ∀ (key : BearerSealKey) (nonce : Nonce) (plaintext aad : Bytes),
    plaintext.length < plaintextLimit →
      W.encrypt key nonce aad plaintext = some (G.Seal key.bytes nonce.bytes plaintext aad)

/-- No field reads, with line breaks passed over and leftover bits dropped, as bytes that are
written otherwise. -/
def Canonical (sealed : SealedBearer) : Prop :=
  ∀ s ∈ [sealed.nonce, sealed.ciphertext], ∀ bytes, decodeLax s = some bytes → encode bytes = s

section Interop
variable {W : ContractDeps} {G : GoAead} {key : BearerSealKey} {token : String}
  {entry : BearerEntry} {sealed : SealedBearer} {json plaintext : Bytes} {nonce : Nonce}

theorem AnchorAgrees.aad (h : AnchorAgrees W G) (token : String) :
    utf8 (bearerTokenHash token) = tokenAad W token := by
  rw [tokenAad, h.hash]

theorem canonical_envelope (nonce : Nonce) (ciphertext : Bytes) :
    Canonical (envelope nonce ciphertext) := by
  have hencode : ∀ bytes bytes', decodeLax (encode bytes) = some bytes' → encode bytes' =
      encode bytes := by
    intro bytes bytes' h
    rw [decodeLax_encode] at h
    rw [Option.some.inj h]
  intro s hs bytes h
  rcases List.mem_cons.mp hs with rfl | hs
  · exact hencode _ _ h
  · rw [List.mem_singleton.mp hs] at h ⊢
    exact hencode _ _ h

/-- The anchor opens an envelope exactly if the crate decrypts its canonical form. -/
theorem AnchorAgrees.openBearer_iff (h : AnchorAgrees W G) :
    openBearer G key.bytes token sealed = .ok plaintext ↔ ∃ nonce ciphertext,
      decodeLax sealed.nonce = some nonce ∧ decodeLax sealed.ciphertext = some ciphertext ∧
        openPlaintext W key token ⟨encode nonce, encode ciphertext⟩ = .ok plaintext := by
  rw [openBearer_ok]
  constructor
  · rintro ⟨nonce, ciphertext, hnonce, hciphertext, hopened⟩
    rw [h.open_eq, h.aad] at hopened
    exact ⟨nonce.bytes, ciphertext, hnonce, hciphertext,
      openPlaintext_ok.mpr ⟨nonce, ciphertext, rfl, hopened⟩⟩
  · rintro ⟨bytes, ciphertext, hnonce, hciphertext, hopened⟩
    obtain ⟨nonce, ciphertext', henvelope, hdecrypt⟩ := openPlaintext_ok.mp hopened
    obtain ⟨hnonce', hciphertext'⟩ := SealedBearer.mk.inj henvelope
    rw [encode_inj] at hnonce' hciphertext'
    subst hnonce' hciphertext'
    refine ⟨nonce, ciphertext, hnonce, hciphertext, ?_⟩
    rw [h.open_eq, h.aad, hdecrypt]

theorem AnchorAgrees.openBearer_of_crate (h : AnchorAgrees W G)
    (hopened : openPlaintext W key token sealed = .ok plaintext) :
    openBearer G key.bytes token sealed = .ok plaintext := by
  obtain ⟨nonce, ciphertext, rfl, -⟩ := openPlaintext_ok.mp hopened
  exact h.openBearer_iff.mpr
    ⟨nonce.bytes, ciphertext, decodeLax_encode _, decodeLax_encode _, hopened⟩

/-- The crate and the anchor open the same envelopes to the same bytes, if the fields are
canonical. What the crate decrypts the anchor opens in any case; the anchor opens more, all
that the crate decrypts once the fields are written anew. -/
theorem openers_agree (W : ContractDeps) (G : GoAead) (agree : AnchorAgrees W G)
    (key : BearerSealKey) (token : String) (sealed : SealedBearer) :
    (Canonical sealed → ∀ plaintext, openBearer G key.bytes token sealed = .ok plaintext ↔
      openPlaintext W key token sealed = .ok plaintext) ∧
    (∀ plaintext, openPlaintext W key token sealed = .ok plaintext →
      openBearer G key.bytes token sealed = .ok plaintext) ∧
    ∀ plaintext, openBearer G key.bytes token sealed = .ok plaintext ↔ ∃ nonce ciphertext,
      decodeLax sealed.nonce = some nonce ∧ decodeLax sealed.ciphertext = some ciphertext ∧
        openPlaintext W key token ⟨encode nonce, encode ciphertext⟩ = .ok plaintext := by
  refine ⟨fun hcanonical plaintext => ⟨fun h => ?_, agree.openBearer_of_crate⟩,
    fun _ => agree.openBearer_of_crate, fun _ => agree.openBearer_iff⟩
  obtain ⟨nonce, ciphertext, hnonce, hciphertext, hopened⟩ := agree.openBearer_iff.mp h
  have hone := hcanonical sealed.nonce (by simp) nonce hnonce
  have htwo := hcanonical sealed.ciphertext (by simp) ciphertext hciphertext
  rw [hone, htwo] at hopened
  exact hopened

theorem sealBearer_eq (nonce : Nonce) : sealBearer G key.bytes (.ok nonce) token json =
    .ok (envelope nonce (G.Seal key.bytes nonce.bytes json (utf8 (bearerTokenHash token)))) := by
  rw [sealBearer, if_neg (not_not.mpr key.size)]

/-- From one nonce both sides make one envelope. -/
theorem SealersAgree.both_seal (h : SealersAgree W G) (hjson : W.entryToJson entry = .ok json)
    (hsize : json.length < plaintextLimit) (nonce : Nonce) : ∃ sealed,
      Prog.Ran (SealedBearer.seal W key token entry) [⟨.generateNonce, nonce⟩] (.ok sealed) ∧
        sealBearer G key.bytes (.ok nonce) token json = .ok sealed := by
  have hsealed : sealPlaintext W key token nonce json =
      .ok (envelope nonce (G.Seal key.bytes nonce.bytes json (utf8 (bearerTokenHash token)))) := by
    apply sealPlaintext_ok.mpr
    refine ⟨_, ?_, rfl⟩
    rw [h.aad]
    exact h.seal_eq key nonce json _ hsize
  refine ⟨_, ?_, sealBearer_eq nonce⟩
  rw [← hsealed]
  exact ran_seal hjson nonce

theorem AnchorAgrees.openPlaintext_anchor (h : AnchorAgrees W G)
    (hsealed : sealBearer G key.bytes (.ok nonce) token json = .ok sealed) :
    openPlaintext W key token sealed = .ok json := by
  rw [sealBearer_eq] at hsealed
  cases hsealed
  refine openPlaintext_ok.mpr ⟨nonce, _, rfl, ?_⟩
  rw [← h.open_eq, h.aad]
  exact h.open_seal _ _ _ _

/-- Both sides seal an entry under every nonce, and what either sealed opens on both. -/
theorem seals_interoperate (W : ContractDeps) (G : GoAead) (agree : SealersAgree W G)
    (key : BearerSealKey) (token : String) (entry : BearerEntry) (json : Bytes)
    (hjson : W.entryToJson entry = .ok json) :
    (json.length < plaintextLimit → ∀ nonce, ∃ sealed,
      Prog.Ran (SealedBearer.seal W key token entry) [⟨.generateNonce, nonce⟩] (.ok sealed) ∧
        sealBearer G key.bytes (.ok nonce) token json = .ok sealed) ∧
    (∀ sealed, (∃ tr, Prog.Ran (SealedBearer.seal W key token entry) tr (.ok sealed)) ∨
        (∃ nonce, sealBearer G key.bytes (.ok nonce) token json = .ok sealed) →
      SealedBearer.open W key token sealed = .ok entry ∧
        openBearer G key.bytes token sealed = .ok json ∧
        SealedBearer.load W (sealed.store W) = some sealed) ∧
    bearerTokenKvKey W token = bearerTokenKVKey token := by
  have hkey : bearerTokenKvKey W token = bearerTokenKVKey token :=
    congrArg ("identity/bearer_tokens/" ++ ·) (agree.hash token)
  refine ⟨agree.both_seal hjson, fun sealed hsealed => ?_, hkey⟩
  have hopened : openPlaintext W key token sealed = .ok json := by
    rcases hsealed with ⟨tr, hran⟩ | ⟨nonce, hsealed⟩
    · rcases seal_ran hran with ⟨e, he, -, -⟩ | ⟨json', nonce, hjson', -, hseal⟩
      · rw [hjson] at he
        cases he
      · rw [hjson] at hjson'
        cases hjson'
        exact openPlaintext_sealed hseal.symm
    · exact agree.openPlaintext_anchor hsealed
  exact ⟨open_ok.mpr ⟨json, hopened, W.entryFromJson_toJson hjson⟩,
    agree.openBearer_of_crate hopened, SealedBearer.load_store W sealed⟩

end Interop

section Sample

def Sample.goAead : GoAead where
  Seal key nonce text aad := ChaCha20Poly1305.encrypt key nonce aad text
  Open key nonce text aad := ChaCha20Poly1305.decrypt key nonce aad text

theorem Sample.goAead_agrees : AnchorAgrees Sample.contract Sample.goAead where
  hash _ := rfl
  open_eq _ _ _ _ := rfl
  open_seal _ _ _ _ := ChaCha20Poly1305.decrypt_encrypt _ _ _ _

theorem Sample.sealers_agree : SealersAgree Sample.contract Sample.goAead where
  toAnchorAgrees := Sample.goAead_agrees
  seal_eq _ _ _ _ _ := rfl

theorem openers_agree_sample : Canonical Sample.sealed ∧
    openBearer Sample.goAead Sample.sealKey.bytes "t" Sample.sealed =
      .ok (Sample.entryToJson Sample.entry) := by
  have hcanonical : Canonical Sample.sealed := canonical_envelope _ _
  have hagree := (openers_agree Sample.contract Sample.goAead Sample.goAead_agrees Sample.sealKey
    "t" Sample.sealed).1 hcanonical
  exact ⟨hcanonical, (hagree _).mpr Sample.sealed_opens⟩

/-- With a line break behind its nonce the anchor still opens the envelope; the crate does
not. -/
theorem anchor_reads_breaks : AnchorAgrees Sample.contract Sample.goAead ∧
    openBearer Sample.goAead Sample.sealKey.bytes "t"
        ⟨"AAAAAAAAAAAAAAAA\n", encode Sample.ciphertext⟩ =
      .ok (Sample.entryToJson Sample.entry) ∧
    openPlaintext Sample.contract Sample.sealKey "t"
        ⟨"AAAAAAAAAAAAAAAA\n", encode Sample.ciphertext⟩ = .error .NonceNotBase64 := by
  have hlax : decodeLax "AAAAAAAAAAAAAAAA\n" = some Sample.nonce.bytes :=
    decodeLax_broken (by decide)
  have hstrict : Sample.contract.standardDecode "AAAAAAAAAAAAAAAA\n" = none := by decide
  refine ⟨Sample.goAead_agrees, Sample.goAead_agrees.openBearer_iff.mpr ⟨Sample.nonce.bytes,
    Sample.ciphertext, hlax, decodeLax_encode _, Sample.sealed_opens⟩, ?_⟩
  simp only [openPlaintext, hstrict]

/-- One nonce on either side: both seals are there, and both open. -/
theorem seals_interoperate_sample : ∃ sealed,
    Prog.Ran (SealedBearer.seal Sample.contract Sample.sealKey "t" Sample.entry)
      [⟨.generateNonce, Sample.nonce⟩] (.ok sealed) ∧
    sealBearer Sample.goAead Sample.sealKey.bytes (.ok Sample.nonce) "t"
      (Sample.entryToJson Sample.entry) = .ok sealed ∧
    SealedBearer.open Sample.contract Sample.sealKey "t" sealed = .ok Sample.entry ∧
    openBearer Sample.goAead Sample.sealKey.bytes "t" sealed =
      .ok (Sample.entryToJson Sample.entry) ∧
    SealedBearer.load Sample.contract (sealed.store Sample.contract) = some sealed ∧
    bearerTokenKvKey Sample.contract "t" = bearerTokenKVKey "t" := by
  have hsize : (Sample.entryToJson Sample.entry).length < plaintextLimit := by
    decide +kernel
  obtain ⟨hseals, hopens, hkey⟩ := seals_interoperate Sample.contract Sample.goAead
    Sample.sealers_agree Sample.sealKey "t" Sample.entry _ rfl
  obtain ⟨sealed, hran, hsealed⟩ := hseals hsize Sample.nonce
  obtain ⟨hcrate, hanchor, hload⟩ := hopens sealed (.inl ⟨_, hran⟩)
  exact ⟨sealed, hran, hsealed, hcrate, hanchor, hload, hkey⟩

end Sample

end SvcAuth
