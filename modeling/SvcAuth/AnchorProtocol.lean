import SvcAuth.NestedJson
import SvcAuth.WireAnchor

/-! How the conformance tests talk to the Go anchor: a request in JSON on its standard input,
a response in JSON on its standard output, each side with its own reader. Through both the
anchor's functions arrive at the caller as they are. -/
namespace SvcAuth
open Interleave JsonWebToken StandardBase64 TextFormats

/-- The JSON of both sides, with the law that each reads what the other writes, and the texts
of their errors. -/
structure AnchorDeps extends ContractDeps where
  /-- `serde_json::to_vec`. -/
  toVec : Json → Bytes
  /-- The syntax that `json.Unmarshal` reads. -/
  unmarshal : Bytes → Except String Json
  unmarshal_toVec : ∀ {v}, Within 2 v → unmarshal (toVec v) = .ok v
  /-- `json.Marshal`. -/
  marshal : Json → Bytes
  /-- The syntax that `serde_json::from_slice` reads. -/
  fromSlice : Bytes → Except String Json
  fromSlice_marshal : ∀ {v}, Within 2 v → fromSlice (marshal v ++ utf8 "\n") = .ok v
  /-- `json.UnmarshalTypeError`, by the path of the field. -/
  unmarshalTypeError : String → Json → String
  /-- `base64.CorruptInputError`, and `DecodeError` of the crate `base64`. -/
  corruptInputError : String → String
  decodeError : String → String
  /-- `%q`. -/
  quote : String → String
  /-- Why `serde_json` does not take the value for an `AnchorResponse`. -/
  deserializeError : Json → String
  fromUtf8Lossy : Bytes → String

section Go

/-- The struct `request` of the anchor. -/
structure GoRequest where
  op : String
  keyB64 : String
  token : String
  plaintextB64 : String
  sealed : Option SealedBearer
  deriving DecidableEq, Repr

/-- The struct `response` of the anchor. -/
structure GoResponse where
  op : String
  kvKey : String
  tokenHash : String
  sealed : Option SealedBearer
  plaintextB64 : String
  error : String
  deriving DecidableEq, Repr

/-- Letters by which field names are matched; two letters beyond ASCII fold into it. -/
def foldRune (c : Char) : Char :=
  if c = '\u017f' then 'S' else if c = '\u212a' then 'K' else c.toUpper

def foldName (name : String) : List Char := name.toList.map foldRune

variable (A : AnchorDeps) (G : GoAead)

def unmarshalString (path old : String) : Json → Except String String
  | .str s => .ok s
  | .null => .ok old
  | v => .error (A.unmarshalTypeError path v)

/-- A member read into the struct `sealedBearer`. -/
def unmarshalBearerField (b : SealedBearer) (m : String × Json) : Except String SealedBearer :=
  if foldName m.1 = foldName "nonce" then do
    return { b with nonce := ← unmarshalString A "sealed.nonce" b.nonce m.2 }
  else if foldName m.1 = foldName "ciphertext" then do
    return { b with ciphertext := ← unmarshalString A "sealed.ciphertext" b.ciphertext m.2 }
  else .ok b

/-- A pointer to the struct: `null` clears it, an object is read into what is there. -/
def unmarshalBearer (old : Option SealedBearer) : Json → Except String (Option SealedBearer)
  | .null => .ok none
  | .obj ms => do return some (← ms.foldlM (unmarshalBearerField A) (old.getD ⟨"", ""⟩))
  | v => .error (A.unmarshalTypeError "sealed" v)

def unmarshalField (req : GoRequest) (m : String × Json) : Except String GoRequest :=
  if foldName m.1 = foldName "op" then do
    return { req with op := ← unmarshalString A "op" req.op m.2 }
  else if foldName m.1 = foldName "key_b64" then do
    return { req with keyB64 := ← unmarshalString A "key_b64" req.keyB64 m.2 }
  else if foldName m.1 = foldName "token" then do
    return { req with token := ← unmarshalString A "token" req.token m.2 }
  else if foldName m.1 = foldName "plaintext_b64" then do
    return { req with plaintextB64 := ← unmarshalString A "plaintext_b64" req.plaintextB64 m.2 }
  else if foldName m.1 = foldName "sealed" then do
    return { req with sealed := ← unmarshalBearer A req.sealed m.2 }
  else .ok req

def unmarshalRequest : Json → Except String GoRequest
  | .null => .ok ⟨"", "", "", "", none⟩
  | .obj ms => ms.foldlM (unmarshalField A) ⟨"", "", "", "", none⟩
  | v => .error (A.unmarshalTypeError "" v)

/-- A string with `omitempty`. -/
def omitEmpty (name value : String) : List (String × Json) :=
  if value = "" then [] else [(name, .str value)]

def GoResponse.toJson (r : GoResponse) : Json :=
  .obj (("op", .str r.op) :: (omitEmpty "kv_key" r.kvKey ++ omitEmpty "token_hash" r.tokenHash ++
    (r.sealed.map fun sealed => ("sealed", sealed.toJson)).toList ++
    omitEmpty "plaintext_b64" r.plaintextB64 ++ omitEmpty "error" r.error))

def fail (message : String) : GoResponse := ⟨"", "", "", none, "", message⟩

def decodeKey (req : GoRequest) : Except GoResponse Bytes :=
  match decodeLax req.keyB64 with
  | none => .error (fail ("key_b64 is not base64: " ++ A.corruptInputError req.keyB64))
  | some key => .ok key

def decodeKeyAndPlaintext (req : GoRequest) : Except GoResponse (Bytes × Bytes) :=
  match decodeKey A req with
  | .error r => .error r
  | .ok key =>
    match decodeLax req.plaintextB64 with
    | none =>
      .error (fail ("plaintext_b64 is not base64: " ++ A.corruptInputError req.plaintextB64))
    | some plaintext => .ok (key, plaintext)

/-- The switch of the anchor's `main`, by what `rand.Read` would give. -/
def respondTo (drawn : Except String Nonce) (req : GoRequest) : GoResponse :=
  if req.op = "key" then
    ⟨"key", bearerTokenKVKey req.token, bearerTokenHash req.token, none, "", ""⟩
  else if req.op = "seal" then
    match decodeKeyAndPlaintext A req with
    | .error r => r
    | .ok (key, plaintext) =>
      match sealBearer G key drawn req.token plaintext with
      | .error e => fail ("seal: " ++ e)
      | .ok sealed =>
        ⟨"seal", bearerTokenKVKey req.token, bearerTokenHash req.token, some sealed, "", ""⟩
  else if req.op = "open" then
    match decodeKey A req with
    | .error r => r
    | .ok key =>
      match req.sealed with
      | none => fail "open requires a sealed value"
      | some sealed =>
        match openBearer G key req.token sealed with
        | .error e => ⟨"open", "", "", none, "", "aead open failed: " ++ e⟩
        | .ok plaintext => ⟨"open", "", "", none, encode plaintext, ""⟩
  else fail ("unknown op " ++ A.quote req.op)

/-- The anchor's `main`: what it prints for what it reads. -/
def anchorMain (drawn : Except String Nonce) (stdin : Except String Bytes) : Bytes :=
  let response := match stdin with
    | .error e => fail ("read stdin: " ++ e)
    | .ok raw =>
      match A.unmarshal raw >>= unmarshalRequest A with
      | .error e => fail ("parse request: " ++ e)
      | .ok req => respondTo A G drawn req
  A.marshal response.toJson ++ utf8 "\n"

end Go

section Rust

/-- The errors of the conformance tests that a check or a request can end in. -/
inductive ConformanceError
  | Run (message : String)
  | AnchorResponse (message : String)
  | AnchorError (message : String)
  | Encode (message : String)
  | Contract (e : AuthContractError)
  deriving DecidableEq, Repr

/-- How a step of the tests ends without a value: with an error, or in a panic. -/
inductive Halt
  | error (e : ConformanceError)
  | panicked
  deriving DecidableEq, Repr

/-- What became of the anchor's process. -/
inductive AnchorRun
  | spawnFailed (message : String)
  | writeFailed (message : String)
  | awaitFailed (message : String)
  | exited (status stderr : String)
  | succeeded (stdout : Bytes)
  deriving DecidableEq, Repr

/-- The calls of the tests: those of the wire, and the anchor's process. -/
inductive ConformanceOp
  | wire (o : WireOp)
  | runAnchor (stdin : Bytes)

def ConformanceOp.Reply : ConformanceOp → Type
  | .wire o => o.Reply
  | .runAnchor _ => AnchorRun

abbrev ConformanceCalls : Sig := ⟨ConformanceOp, ConformanceOp.Reply⟩

abbrev ConformanceAction := Prog ConformanceCalls

def runAnchor (stdin : Bytes) : ConformanceAction AnchorRun :=
  .op (S := ConformanceCalls) (.runAnchor stdin)

/-- `?`. -/
def andThen {α β : Type} (p : ConformanceAction (Except Halt α))
    (f : α → ConformanceAction (Except Halt β)) : ConformanceAction (Except Halt β) := do
  match ← p with
  | .ok a => f a
  | .error e => return .error e

structure AnchorRequest where
  op : String
  keyB64 : Option String
  token : String
  plaintextB64 : Option String
  sealed : Option SealedBearer

structure AnchorResponse where
  kvKey : Option String
  tokenHash : Option String
  sealed : Option SealedBearer
  plaintextB64 : Option String
  error : Option String
  deriving DecidableEq, Repr

/-- A field with `skip_serializing_if`. -/
def skipNone (name : String) (value : Option Json) : List (String × Json) :=
  (value.map fun v => (name, v)).toList

def AnchorRequest.toJson (req : AnchorRequest) : Json :=
  .obj (("op", .str req.op) :: (skipNone "key_b64" (req.keyB64.map .str) ++
    (("token", .str req.token) :: (skipNone "plaintext_b64" (req.plaintextB64.map .str) ++
      skipNone "sealed" (req.sealed.map SealedBearer.toJson)))))

def nullable {T : Type} (read : Json → Option T) : Json → Option (Option T)
  | .null => some none
  | v => (read v).map some

/-- An optional field with `default`. -/
def defaulted {T : Type} (ms : List (String × Json)) (f : String) (read : Json → Option T) :
    Option (Option T) :=
  match field ms f with
  | none => none
  | some none => some none
  | some (some v) => nullable read v

/-- The deserializer: of an object, or of an array that begins with the fields. -/
def AnchorResponse.ofJson : Json → Option AnchorResponse
  | .obj ms => do
    let kvKey ← defaulted ms "kv_key" Json.asStr
    let tokenHash ← defaulted ms "token_hash" Json.asStr
    let sealed ← defaulted ms "sealed" SealedBearer.ofJson
    let plaintextB64 ← defaulted ms "plaintext_b64" Json.asStr
    let error ← defaulted ms "error" Json.asStr
    return ⟨kvKey, tokenHash, sealed, plaintextB64, error⟩
  | .arr items =>
    if items.length ≤ 5 then do
      let kvKey ← nullable Json.asStr (items.getD 0 .null)
      let tokenHash ← nullable Json.asStr (items.getD 1 .null)
      let sealed ← nullable SealedBearer.ofJson (items.getD 2 .null)
      let plaintextB64 ← nullable Json.asStr (items.getD 3 .null)
      let error ← nullable Json.asStr (items.getD 4 .null)
      return ⟨kvKey, tokenHash, sealed, plaintextB64, error⟩
    else none
  | _ => none

variable (A : AnchorDeps)

def AnchorResponse.deserialize (stdout : Bytes) : Except String AnchorResponse :=
  match A.fromSlice stdout with
  | .error e => .error e
  | .ok v =>
    match AnchorResponse.ofJson v with
    | none => .error (A.deserializeError v)
    | some response => .ok response

def Anchor.invoke (request : AnchorRequest) : ConformanceAction (Except Halt AnchorResponse) := do
  match ← runAnchor (A.toVec request.toJson) with
  | .spawnFailed e => return .error (.error (.Run ("spawn anchor: " ++ e)))
  | .writeFailed e => return .error (.error (.Run ("write anchor stdin: " ++ e)))
  | .awaitFailed e => return .error (.error (.Run ("await anchor: " ++ e)))
  | .exited status stderr =>
    return .error (.error (.Run ("anchor exited " ++ status ++ " ; stderr:\n" ++ stderr)))
  | .succeeded stdout =>
    match AnchorResponse.deserialize A stdout with
    | .error e =>
      return .error (.error (.AnchorResponse (e ++ "\nstdout: " ++ A.fromUtf8Lossy stdout)))
    | .ok response =>
      match response.error with
      | some e =>
        if request.op ≠ "open" then return .error (.error (.AnchorError e))
        else return .ok response
      | none => return .ok response

def Anchor.missing {α : Type} (message : String) : ConformanceAction (Except Halt α) :=
  return .error (.error (.AnchorResponse message))

def Anchor.kvKey (token : String) : ConformanceAction (Except Halt (String × String)) :=
  andThen (Anchor.invoke A ⟨"key", none, token, none, none⟩) fun response =>
    match response.kvKey with
    | none => Anchor.missing "key op returned no kv_key"
    | some kvKey =>
      match response.tokenHash with
      | none => Anchor.missing "key op returned no token_hash"
      | some tokenHash => return .ok (kvKey, tokenHash)

def Anchor.seal (key : Bytes) (token : String) (plaintext : Bytes) :
    ConformanceAction (Except Halt SealedBearer) :=
  andThen (Anchor.invoke A ⟨"seal", some (encode key), token, some (encode plaintext), none⟩)
    fun response =>
      match response.sealed with
      | none => Anchor.missing "seal op returned no sealed"
      | some sealed => return .ok sealed

def Anchor.open (key : Bytes) (token : String) (sealed : SealedBearer) :
    ConformanceAction (Except Halt (Except String Bytes)) :=
  andThen (Anchor.invoke A ⟨"open", some (encode key), token, none, some sealed⟩) fun response =>
    match response.error with
    | some e => return .ok (.error e)
    | none =>
      match response.plaintextB64 with
      | none => Anchor.missing "open op returned neither plaintext nor error"
      | some plaintextB64 =>
        match A.standardDecode plaintextB64 with
        | none => Anchor.missing ("plaintext not base64: " ++ A.decodeError plaintextB64)
        | some plaintext => return .ok (.ok plaintext)

end Rust

section Codecs
variable (A : AnchorDeps)

/-- The request as the anchor reads it. -/
def AnchorRequest.received (req : AnchorRequest) : GoRequest :=
  ⟨req.op, req.keyB64.getD "", req.token, req.plaintextB64.getD "", req.sealed⟩

/-- A string that `omitempty` writes only if there is something in it. -/
def present (s : String) : Option String := if s = "" then none else some s

/-- The response as the tests read it. -/
def GoResponse.received (r : GoResponse) : AnchorResponse :=
  ⟨present r.kvKey, present r.tokenHash, r.sealed, present r.plaintextB64, present r.error⟩

/-- No field name is matched for another. -/
theorem foldName_apart : foldName "key_b64" ≠ foldName "op" ∧ foldName "token" ≠ foldName "op" ∧
    foldName "token" ≠ foldName "key_b64" ∧ foldName "plaintext_b64" ≠ foldName "op" ∧
    foldName "plaintext_b64" ≠ foldName "key_b64" ∧
    foldName "plaintext_b64" ≠ foldName "token" ∧ foldName "sealed" ≠ foldName "op" ∧
    foldName "sealed" ≠ foldName "key_b64" ∧ foldName "sealed" ≠ foldName "token" ∧
    foldName "sealed" ≠ foldName "plaintext_b64" ∧ foldName "ciphertext" ≠ foldName "nonce" := by
  decide

theorem unmarshalBearer_toJson (sealed : SealedBearer) :
    unmarshalBearer A none sealed.toJson = .ok (some sealed) := by
  simp [unmarshalBearer, SealedBearer.toJson, unmarshalBearerField, unmarshalString, foldName_apart,
    bind, Except.bind, pure, Except.pure]

theorem unmarshalRequest_toJson (req : AnchorRequest) :
    unmarshalRequest A req.toJson = .ok req.received := by
  obtain ⟨op, keyB64, token, plaintextB64, sealed⟩ := req
  cases keyB64 <;> cases plaintextB64 <;> cases sealed <;>
    simp [unmarshalRequest, AnchorRequest.toJson, AnchorRequest.received, skipNone, unmarshalField,
      unmarshalString, unmarshalBearer_toJson, foldName_apart, bind, Except.bind, pure, Except.pure]

theorem omitEmpty_present (name value : String) :
    omitEmpty name value = skipNone name ((present value).map .str) := by
  unfold omitEmpty present
  split
  · rfl
  · rfl

theorem occurrences_append (ms ns : List (String × Json)) (f : String) :
    occurrences (ms ++ ns) f = occurrences ms f ++ occurrences ns f := by
  simp [occurrences]

theorem occurrences_skipNone (name f : String) (value : Option Json) :
    occurrences (skipNone name value) f = if name = f then value.toList else [] := by
  cases value with
  | none => simp [skipNone, occurrences]
  | some v => by_cases h : name = f <;> simp [skipNone, occurrences, h]

/-- A field that was written, or left out, and is nowhere else. -/
theorem defaulted_written {T : Type} {ms : List (String × Json)} (f : String) (value : Option T)
    {read : Json → Option T} {write : T → Json} (hread : ∀ a, read (write a) = some a)
    (hnull : ∀ a, write a ≠ .null)
    (hms : occurrences ms f = (value.map write).toList) : defaulted ms f read = some value := by
  cases value with
  | none => simp [defaulted, field, hms]
  | some a =>
    have hone : nullable read (write a) = some (some a) := by
      unfold nullable
      split
      · rename_i hv
        exact absurd hv (hnull a)
      · rw [hread, Option.map_some]
    simp [defaulted, field, hms, hone]

theorem GoResponse.toJson_eq (r : GoResponse) : r.toJson =
    .obj (skipNone "op" (some (.str r.op)) ++ (skipNone "kv_key" ((present r.kvKey).map .str) ++
      skipNone "token_hash" ((present r.tokenHash).map .str) ++
      skipNone "sealed" (r.sealed.map SealedBearer.toJson) ++
      skipNone "plaintext_b64" ((present r.plaintextB64).map .str) ++
      skipNone "error" ((present r.error).map .str))) := by
  simp only [GoResponse.toJson, omitEmpty_present]
  cases r.sealed <;> rfl

theorem ofJson_toJson (r : GoResponse) : AnchorResponse.ofJson r.toJson = some r.received := by
  have hstr : ∀ s, Json.asStr (.str s) = some s := fun _ => rfl
  have hwritten : ∀ s, Json.str s ≠ .null := by simp
  have hsealed : ∀ b : SealedBearer, b.toJson ≠ .null := by simp [SealedBearer.toJson]
  rw [r.toJson_eq, AnchorResponse.ofJson,
    defaulted_written "kv_key" (present r.kvKey) hstr hwritten
      (by simp [occurrences_append, occurrences_skipNone]),
    defaulted_written "token_hash" (present r.tokenHash) hstr hwritten
      (by simp [occurrences_append, occurrences_skipNone]),
    defaulted_written "sealed" r.sealed SealedBearer.ofJson_toJson hsealed
      (by simp [occurrences_append, occurrences_skipNone]),
    defaulted_written "plaintext_b64" (present r.plaintextB64) hstr hwritten
      (by simp [occurrences_append, occurrences_skipNone]),
    defaulted_written "error" (present r.error) hstr hwritten
      (by simp [occurrences_append, occurrences_skipNone])]
  rfl

theorem within_skipNone {d : ℕ} {name : String} {value : Option Json}
    (h : ∀ v, value = some v → Within d v) : ∀ m ∈ skipNone name value, Within d m.2 := by
  intro m hm
  cases value with
  | none => cases hm
  | some v =>
    rw [skipNone, Option.map_some, Option.toList_some, List.mem_singleton] at hm
    rw [hm]
    exact h v rfl

theorem within_text {value : Option String} : ∀ v, value.map Json.str = some v → Within 1 v := by
  intro v hv
  obtain ⟨s, -, rfl⟩ := Option.map_eq_some_iff.mp hv
  trivial

theorem within_bearer {value : Option SealedBearer} :
    ∀ v, value.map SealedBearer.toJson = some v → Within 1 v := by
  intro v hv
  obtain ⟨b, -, rfl⟩ := Option.map_eq_some_iff.mp hv
  intro m hm
  rcases List.mem_pair.mp hm with rfl | rfl <;> trivial

theorem within_request (req : AnchorRequest) : Within 2 req.toJson := by
  intro m hm
  rcases List.mem_cons.mp hm with rfl | hm
  · trivial
  rcases List.mem_append.mp hm with hm | hm
  · exact within_skipNone within_text m hm
  rcases List.mem_cons.mp hm with rfl | hm
  · trivial
  rcases List.mem_append.mp hm with hm | hm
  · exact within_skipNone within_text m hm
  · exact within_skipNone within_bearer m hm

theorem within_response (r : GoResponse) : Within 2 r.toJson := by
  have hop : ∀ v, some (Json.str r.op) = some v → Within 1 v := by
    intro v hv
    cases hv
    trivial
  rw [r.toJson_eq]
  intro m hm
  simp only [List.mem_append] at hm
  rcases hm with hm | (((hm | hm) | hm) | hm) | hm
  · exact within_skipNone hop m hm
  · exact within_skipNone within_text m hm
  · exact within_skipNone within_text m hm
  · exact within_skipNone within_bearer m hm
  · exact within_skipNone within_text m hm
  · exact within_skipNone within_text m hm

end Codecs

section Answers
variable (A : AnchorDeps) (G : GoAead)

/-- The process answers with what the anchor prints, and both sides draw their nonces from one
source. -/
def AnchorAnswers (drawn : Except String Nonce) : ConformanceCalls.Event → Prop
  | ⟨.runAnchor stdin, run⟩ => run = .succeeded (anchorMain A G drawn (.ok stdin))
  | ⟨.wire .generateNonce, nonce⟩ => drawn = .ok nonce
  | ⟨.wire _, _⟩ => True

/-- All calls from number `n` on are answered, each by what is drawn for it. -/
def AnsweredFrom (draws : ℕ → Except String Nonce) : ℕ → List ConformanceCalls.Event → Prop
  | _, [] => True
  | n, e :: tr => AnchorAnswers A G (draws n) e ∧ AnsweredFrom draws (n + 1) tr

/-- The program ends with this, after `k` calls and in no other way, if the calls from number
`n` on are answered. -/
def Gives {α : Type} (draws : ℕ → Except String Nonce) (n : ℕ) (p : ConformanceAction α) (k : ℕ)
    (a : α) : Prop :=
  (∃ tr, Prog.Ran p tr a ∧ AnsweredFrom A G draws n tr) ∧
    ∀ tr b, Prog.Ran p tr b → AnsweredFrom A G draws n tr → tr.length = k ∧ b = a

variable {A G} {draws : ℕ → Except String Nonce} {n k l : ℕ} {α β : Type}

theorem answeredFrom_append {tr tr' : List ConformanceCalls.Event} :
    AnsweredFrom A G draws n (tr ++ tr') ↔
      AnsweredFrom A G draws n tr ∧ AnsweredFrom A G draws (n + tr.length) tr' := by
  induction tr generalizing n with
  | nil => simp [AnsweredFrom]
  | cons e tr ih =>
    simp only [List.cons_append, AnsweredFrom, ih, List.length_cons, and_assoc]
    rw [Nat.add_assoc, Nat.add_comm 1]

theorem gives_ret (a : α) : Gives A G draws n (.ret a) 0 a := by
  refine ⟨⟨[], .ret a, trivial⟩, fun tr b hran _ => ?_⟩
  obtain ⟨rfl, rfl⟩ := Prog.ran_ret.mp hran
  exact ⟨rfl, rfl⟩

theorem Gives.bind {p : ConformanceAction α} {f : α → ConformanceAction β} {a : α} {b : β}
    (hp : Gives A G draws n p k a) (hf : Gives A G draws (n + k) (f a) l b) :
    Gives A G draws n (p >>= f) (k + l) b := by
  obtain ⟨⟨t₁, h₁, hfirst⟩, honly⟩ := hp
  obtain ⟨⟨t₂, h₂, hrest⟩, honly'⟩ := hf
  have hlength := (honly t₁ a h₁ hfirst).1
  constructor
  · refine ⟨t₁ ++ t₂, Prog.ran_bind.mpr ⟨a, t₁, t₂, rfl, h₁, h₂⟩, ?_⟩
    refine answeredFrom_append.mpr ⟨hfirst, ?_⟩
    rw [hlength]
    exact hrest
  · intro tr c hran hanswered
    obtain ⟨a', s₁, s₂, rfl, hleft, hright⟩ := Prog.ran_bind.mp hran
    obtain ⟨hfirst', hrest'⟩ := answeredFrom_append.mp hanswered
    obtain ⟨hk, ha⟩ := honly s₁ a' hleft hfirst'
    subst ha
    rw [hk] at hrest'
    obtain ⟨hl, hc⟩ := honly' s₂ c hright hrest'
    rw [List.length_append, hk, hl]
    exact ⟨rfl, hc⟩

/-- A request that is answered, and what is made of the answer with no call more. -/
theorem Gives.returns {p : ConformanceAction (Except Halt α)}
    {f : α → ConformanceAction (Except Halt β)} {a : α} {b : Except Halt β}
    (hp : Gives A G draws n p k (.ok a)) (hf : f a = .ret b) :
    Gives A G draws n (andThen p f) k b := by
  apply Gives.bind (l := 0) hp
  simp only [hf]
  exact gives_ret b

theorem Gives.halts {p : ConformanceAction (Except Halt α)}
    {f : α → ConformanceAction (Except Halt β)} {e : Halt}
    (hp : Gives A G draws n p k (.error e)) :
    Gives A G draws n (andThen p f) k (.error e) := by
  apply Gives.bind (l := 0) hp
  exact gives_ret _

theorem gives_runAnchor (stdin : Bytes) : Gives A G draws n (runAnchor stdin) 1
    (.succeeded (anchorMain A G (draws n) (.ok stdin))) := by
  constructor
  · exact ⟨[⟨.runAnchor stdin, _⟩], .call (.ret _), rfl, trivial⟩
  · intro tr b hran hanswered
    obtain ⟨r, rest, rfl, hrest⟩ := Prog.ran_call.mp hran
    obtain ⟨rfl, rfl⟩ := Prog.ran_ret.mp hrest
    exact ⟨rfl, hanswered.1⟩

/-- What a request gives, by what the anchor responds to it. -/
def invoked (op : String) (response : AnchorResponse) : Except Halt AnchorResponse :=
  match response.error with
  | some e => if op ≠ "open" then .error (.error (.AnchorError e)) else .ok response
  | none => .ok response

theorem gives_invoke (A : AnchorDeps) (G : GoAead) (draws : ℕ → Except String Nonce) (n : ℕ)
    (req : AnchorRequest) : Gives A G draws n (Anchor.invoke A req) 1
    (invoked req.op (respondTo A G (draws n) req.received).received) := by
  have hprinted : anchorMain A G (draws n) (.ok (A.toVec req.toJson)) =
      A.marshal (respondTo A G (draws n) req.received).toJson ++ utf8 "\n" := by
    have hread : A.unmarshal (A.toVec req.toJson) >>= unmarshalRequest A = .ok req.received := by
      rw [A.unmarshal_toVec (within_request req)]
      exact unmarshalRequest_toJson A req
    simp only [anchorMain, hread]
  have hreceived : AnchorResponse.deserialize A (anchorMain A G (draws n)
      (.ok (A.toVec req.toJson))) = .ok (respondTo A G (draws n) req.received).received := by
    rw [hprinted, AnchorResponse.deserialize, A.fromSlice_marshal (within_response _)]
    simp only [ofJson_toJson]
  apply Gives.bind (k := 1) (l := 0) (gives_runAnchor (A.toVec req.toJson))
  simp only [hreceived, invoked]
  split
  · split <;> exact gives_ret _
  · exact gives_ret _

end Answers

section Transparency
variable {A : AnchorDeps} {G : GoAead} {draws : ℕ → Except String Nonce} {n : ℕ}

theorem present_append {s t : String} (hs : s ≠ "") : present (s ++ t) = some (s ++ t) := by
  rw [present, if_neg]
  simp [hs]

theorem sha256_length (message : Bytes) : (HmacSha256.sha256 message).length = 32 := by
  simp [HmacSha256.sha256, HmacSha256.fromWord]

theorem bearerTokenHash_length (token : String) : (bearerTokenHash token).toList.length = 64 := by
  have hdigits : ∀ bs : Bytes,
      (bs.flatMap fun b => hexDigits 2 b.toNat).length = 2 * bs.length := by
    intro bs
    induction bs with
    | nil => rfl
    | cons b bs ih =>
      rw [List.flatMap_cons, List.length_append, ih, List.length_cons]
      simp [hexDigits]
      omega
  rw [bearerTokenHash, hexEncodeToString, String.toList_ofList, hdigits, sha256_length]

theorem bearerTokenHash_ne_empty (token : String) : bearerTokenHash token ≠ "" := by
  intro h
  have hlength := bearerTokenHash_length token
  rw [h] at hlength
  cases hlength

theorem gives_kvKey (token : String) : Gives A G draws n (Anchor.kvKey A token) 1
    (.ok (bearerTokenKVKey token, bearerTokenHash token)) := by
  have hkey : present (bearerTokenKVKey token) = some (bearerTokenKVKey token) :=
    present_append (by decide)
  have hhash : present (bearerTokenHash token) = some (bearerTokenHash token) :=
    if_neg (bearerTokenHash_ne_empty token)
  have hinvoke := gives_invoke A G draws n ⟨"key", none, token, none, none⟩
  simp only [AnchorRequest.received, respondTo, if_pos, GoResponse.received, hkey, hhash] at hinvoke
  exact hinvoke.returns rfl

theorem gives_seal (key plaintext : Bytes) (token : String) :
    Gives A G draws n (Anchor.seal A key token plaintext) 1
      ((sealBearer G key (draws n) token plaintext).mapError
        fun e => .error (.AnchorError ("seal: " ++ e))) := by
  have hinvoke := gives_invoke A G draws n
    ⟨"seal", some (encode key), token, some (encode plaintext), none⟩
  have hread : decodeKeyAndPlaintext A ⟨"seal", encode key, token, encode plaintext, none⟩ =
      .ok (key, plaintext) := by
    simp [decodeKeyAndPlaintext, decodeKey]
  have hresponse : respondTo A G (draws n) ⟨"seal", encode key, token, encode plaintext, none⟩ =
      match sealBearer G key (draws n) token plaintext with
      | .error e => fail ("seal: " ++ e)
      | .ok sealed =>
        ⟨"seal", bearerTokenKVKey token, bearerTokenHash token, some sealed, "", ""⟩ := by
    simp only [respondTo, hread]
    rfl
  simp only [AnchorRequest.received, Option.getD_some, hresponse] at hinvoke
  cases hsealed : sealBearer G key (draws n) token plaintext with
  | error e =>
    rw [hsealed] at hinvoke
    exact Gives.halts hinvoke
  | ok sealed =>
    rw [hsealed] at hinvoke
    exact hinvoke.returns rfl

/-- What the tests get for what the anchor opens: an empty plaintext is lost on the way. -/
def openedThrough (opened : Except String Bytes) : Except Halt (Except String Bytes) :=
  match opened with
  | .error e => .ok (.error ("aead open failed: " ++ e))
  | .ok [] => .error (.error (.AnchorResponse "open op returned neither plaintext nor error"))
  | .ok plaintext => .ok (.ok plaintext)

theorem gives_open (key : Bytes) (token : String) (sealed : SealedBearer) :
    Gives A G draws n (Anchor.open A key token sealed) 1
      (openedThrough (openBearer G key token sealed)) := by
  have hinvoke := gives_invoke A G draws n ⟨"open", some (encode key), token, none, some sealed⟩
  have hread : decodeKey A ⟨"open", encode key, token, "", some sealed⟩ = .ok key := by
    simp [decodeKey]
  have hresponse : respondTo A G (draws n) ⟨"open", encode key, token, "", some sealed⟩ =
      match openBearer G key token sealed with
      | .error e => ⟨"open", "", "", none, "", "aead open failed: " ++ e⟩
      | .ok plaintext => ⟨"open", "", "", none, encode plaintext, ""⟩ := by
    simp only [respondTo, hread]
    rfl
  simp only [AnchorRequest.received, Option.getD_some, Option.getD_none, hresponse] at hinvoke
  cases hopened : openBearer G key token sealed with
  | error e =>
    have hpresent : present ("aead open failed: " ++ e) = some ("aead open failed: " ++ e) :=
      present_append (by decide)
    simp only [hopened, GoResponse.received, hpresent] at hinvoke
    exact hinvoke.returns rfl
  | ok plaintext =>
    rw [hopened] at hinvoke
    cases plaintext with
    | nil => exact hinvoke.returns rfl
    | cons b bs =>
      have hpresent : present (encode (b :: bs)) = some (encode (b :: bs)) := by
        rw [present, if_neg]
        intro hempty
        cases encode_inj.mp (hempty.trans (show "" = encode [] from rfl))
      apply hinvoke.returns
      simp only [GoResponse.received, hpresent, Deps.standardDecode_encode]
      rfl

/-- The conformance tests call the anchor's functions as they are, through two JSON readers and
two base64 readers: what a request gives is what the function gives, for every key, token, text
and envelope. An error of the anchor arrives under its operation's name, and one plaintext is
lost on the way: an empty one. -/
theorem anchor_transparent (A : AnchorDeps) (G : GoAead) (draws : ℕ → Except String Nonce) (n : ℕ)
    (key plaintext : Bytes) (token : String) (sealed : SealedBearer) :
    Gives A G draws n (Anchor.kvKey A token) 1
      (.ok (bearerTokenKVKey token, bearerTokenHash token)) ∧
    Gives A G draws n (Anchor.seal A key token plaintext) 1
      ((sealBearer G key (draws n) token plaintext).mapError
        fun e => .error (.AnchorError ("seal: " ++ e))) ∧
    Gives A G draws n (Anchor.open A key token sealed) 1
      (openedThrough (openBearer G key token sealed)) :=
  ⟨gives_kvKey token, gives_seal key plaintext token, gives_open key token sealed⟩

end Transparency

section Sample

/-- A message as either side of the deployment writes it. -/
def Sample.writeMessage (v : Json) : Bytes := utf8 (.ofList (nestedValue 2 v))

def Sample.readMessage (bs : Bytes) : Except String Json :=
  match fromUtf8 bs >>= fun s => readText 2 s.toList with
  | some v => .ok v
  | none => .error "not a message"

theorem Sample.readMessage_written {v : Json} (hv : Within 2 v) {ws : List Char}
    (hws : ∀ c ∈ ws, c.isWhitespace = true) :
    readMessage (utf8 (.ofList (nestedValue 2 v ++ ws))) = .ok v := by
  simp only [readMessage, fromUtf8_utf8, Option.bind_eq_bind, Option.bind_some,
    String.toList_ofList, readText_nestedValue hv hws]

theorem Sample.writeMessage_line (v : Json) :
    writeMessage v ++ utf8 "\n" = utf8 (.ofList (nestedValue 2 v ++ ['\n'])) := by
  have hline : "\n" = String.ofList ['\n'] := rfl
  simp only [writeMessage, hline, utf8, String.ofList_append, String.toByteArray_append,
    ByteArray.data_append, Array.toList_append]

def Sample.anchorDeps : AnchorDeps where
  toContractDeps := contract
  toVec := writeMessage
  unmarshal := readMessage
  unmarshal_toVec {v} hv := by
    have hread : readMessage (utf8 (.ofList (nestedValue 2 v ++ []))) = .ok v :=
      readMessage_written hv (by simp)
    rw [List.append_nil] at hread
    exact hread
  marshal := writeMessage
  fromSlice := readMessage
  fromSlice_marshal hv := by
    rw [writeMessage_line]
    exact readMessage_written hv (by simp)
  unmarshalTypeError path _ := "json: cannot unmarshal into Go struct field request." ++ path
  corruptInputError _ := "illegal base64 data"
  decodeError _ := "Invalid symbol"
  quote s := "\"" ++ s ++ "\""
  deserializeError _ := "invalid type"
  fromUtf8Lossy bs := (fromUtf8 bs).getD ""

/-- The tests get the sample envelope from the anchor, and have it opened again. -/
theorem anchor_transparent_sample :
    Gives Sample.anchorDeps Sample.goAead (fun _ => .ok Sample.nonce) 0
      (Anchor.seal Sample.anchorDeps Sample.sealKey.bytes "t" (Sample.entryToJson Sample.entry)) 1
      (.ok Sample.sealed) ∧
    Gives Sample.anchorDeps Sample.goAead (fun _ => .ok Sample.nonce) 1
      (Anchor.open Sample.anchorDeps Sample.sealKey.bytes "t" Sample.sealed) 1
      (openedThrough (.ok (Sample.entryToJson Sample.entry))) := by
  have hopened : openBearer Sample.goAead Sample.sealKey.bytes "t" Sample.sealed =
      .ok (Sample.entryToJson Sample.entry) :=
    Sample.goAead_agrees.openBearer_of_crate Sample.sealed_opens
  have hcalls := fun n => anchor_transparent Sample.anchorDeps Sample.goAead
    (fun _ => .ok Sample.nonce) n Sample.sealKey.bytes (Sample.entryToJson Sample.entry) "t"
    Sample.sealed
  refine ⟨(hcalls 0).2.1, ?_⟩
  rw [← hopened]
  exact (hcalls 1).2.2

end Sample

end SvcAuth
