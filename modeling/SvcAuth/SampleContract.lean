import SvcAuth.BearerContract
import SvcAuth.ChaCha20Poly1305
import SvcAuth.SampleDeployment

/-! The wire of the deployment: SHA-256 in hexadecimal for the token hash,
ChaCha20-Poly1305 for the AEAD, and the JSON of entries as it is written. -/
namespace SvcAuth.Sample
open TextFormats HmacSha256

section EntryJson

/-- The JSON of an entry up to the id of its actor. -/
def entryOpening : Actor → String
  | .Human _ => "\x7b\"actor\":\x7b\"kind\":\"human\",\"id\":\""
  | .Service _ => "\x7b\"actor\":\x7b\"kind\":\"service\",\"id\":\""

def entryMiddle : String := "\"\x7d,\"token_id\":\""

def entryClosing : String := "\"\x7d"

def entryText (entry : BearerEntry) : List Char :=
  (entryOpening entry.actor).toList ++ ((uuidText entry.actor.id).toList ++
    (entryMiddle.toList ++ ((uuidText entry.tokenId).toList ++ entryClosing.toList)))

/-- An entry with an actor of one kind, in the text that is written. -/
def readEntry (kind : Uuid → Actor) (cs : List Char) : Option BearerEntry := do
  let cs ← stripPrefix (entryOpening (kind ⟨0⟩)).toList cs
  let id ← fromUuidText (.ofList (cs.take 36))
  let cs ← stripPrefix entryMiddle.toList (cs.drop 36)
  let tokenId ← fromUuidText (.ofList (cs.take 36))
  if cs.drop 36 = entryClosing.toList then return ⟨kind id, tokenId⟩ else none

def entryToJson (entry : BearerEntry) : Bytes := utf8 (.ofList (entryText entry))

def entryFromJson (bs : Bytes) : Option BearerEntry := do
  let s ← fromUtf8 bs
  (readEntry .Human s.toList).or (readEntry .Service s.toList)

theorem hexDigits_length (width n : ℕ) : (hexDigits width n).length = width := by
  induction width generalizing n with
  | zero => rfl
  | succ width ih => simp [hexDigits, ih]

theorem uuidText_length (u : Uuid) : (uuidText u).toList.length = 36 := by
  simp [uuidText, hyphenated, hexDigits_length]

theorem stripPrefix_append (pre cs : List Char) : stripPrefix pre (pre ++ cs) = some cs := by
  have hprefix : pre.isPrefixOf (pre ++ cs) = true :=
    List.isPrefixOf_iff_prefix.mpr (List.prefix_append _ _)
  rw [stripPrefix, if_pos hprefix, List.drop_left]

theorem take_uuid (u : Uuid) (cs : List Char) :
    fromUuidText (.ofList (((uuidText u).toList ++ cs).take 36)) = some u ∧
      ((uuidText u).toList ++ cs).drop 36 = cs := by
  have hlength := uuidText_length u
  rw [← hlength, List.take_left, List.drop_left, String.ofList_toList]
  exact ⟨fromUuidText_uuidText u, rfl⟩

theorem readEntry_entryText {kind : Uuid → Actor} (hid : ∀ id, (kind id).id = id)
    (hopening : ∀ id, entryOpening (kind id) = entryOpening (kind ⟨0⟩)) (id tokenId : Uuid) :
    readEntry kind (entryText ⟨kind id, tokenId⟩) = some ⟨kind id, tokenId⟩ := by
  obtain ⟨htake, hdrop⟩ := take_uuid id
    (entryMiddle.toList ++ ((uuidText tokenId).toList ++ entryClosing.toList))
  obtain ⟨htake', hdrop'⟩ := take_uuid tokenId entryClosing.toList
  simp only [readEntry, entryText, hid, hopening id, stripPrefix_append, Option.bind_eq_bind,
    Option.bind_some, htake, hdrop, htake', hdrop', if_true]
  rfl

theorem readEntry_other (id tokenId : Uuid) :
    readEntry .Human (entryText ⟨.Service id, tokenId⟩) = none := by
  have hother : stripPrefix (entryOpening (.Human ⟨0⟩)).toList (entryText ⟨.Service id, tokenId⟩) =
      none := by simp [stripPrefix, entryText, entryOpening]
  simp only [readEntry, hother, Option.bind_eq_bind, Option.bind_none]

theorem entryFromJson_entryToJson (entry : BearerEntry) :
    entryFromJson (entryToJson entry) = some entry := by
  simp only [entryFromJson, entryToJson, fromUtf8_utf8, Option.bind_eq_bind, Option.bind_some,
    String.toList_ofList]
  obtain ⟨actor, tokenId⟩ := entry
  cases actor with
  | Human id => rw [readEntry_entryText (fun _ => rfl) (fun _ => rfl), Option.some_or]
  | Service id =>
    rw [readEntry_other, Option.none_or, readEntry_entryText (fun _ => rfl) (fun _ => rfl)]

end EntryJson

/-- SHA-256 in lowercase hexadecimal digits. -/
def bearerTokenKey (token : String) : String :=
  .ofList ((sha256 (utf8 token)).flatMap fun b => hexDigits 2 b.toNat)

def valueToJson : Json → Bytes
  | .obj ms => jsonObject ms
  | _ => []

def contract : ContractDeps where
  toDeps := deps
  bearerTokenKey := bearerTokenKey
  kvKeyNew_bearer _ := rfl
  encrypt key nonce aad msg := some (ChaCha20Poly1305.encrypt key.bytes nonce.bytes aad msg)
  decrypt key nonce aad ciphertext :=
    ChaCha20Poly1305.decrypt key.bytes nonce.bytes aad ciphertext
  decrypt_encrypt h := by
    cases h
    exact ChaCha20Poly1305.decrypt_encrypt _ _ _ _
  entryToJson entry := .ok (entryToJson entry)
  entryFromJson bs :=
    match entryFromJson bs with
    | some entry => .ok entry
    | none => .error "not an entry"
  entryFromJson_toJson h := by
    cases h
    rw [entryFromJson_entryToJson]
  valueToJson := valueToJson
  valueFromJson bs := (fromJsonObject bs).map .obj
  valueFromJson_toJson ms h := by
    rw [valueToJson, fromJsonObject_jsonObject h]
    rfl

/-- The key and the nonce that are all zeros, and an entry of a person. -/
def sealKey : BearerSealKey := ⟨List.replicate 32 0, rfl⟩

def nonce : Nonce := ⟨List.replicate 12 0, rfl⟩

def entry : BearerEntry := ⟨.Human ⟨1⟩, ⟨2⟩⟩

/-- The sample entry as the crate seals it for the token `t`. -/
def ciphertext : Bytes :=
  ChaCha20Poly1305.encrypt sealKey.bytes nonce.bytes (tokenAad contract "t") (entryToJson entry)

def sealed : SealedBearer := envelope nonce ciphertext

theorem sealed_seal :
    sealPlaintext contract sealKey "t" nonce (entryToJson entry) = .ok sealed :=
  sealPlaintext_ok.mpr ⟨ciphertext, rfl, rfl⟩

theorem sealed_opens : openPlaintext contract sealKey "t" sealed = .ok (entryToJson entry) :=
  openPlaintext_sealed sealed_seal

end SvcAuth.Sample
