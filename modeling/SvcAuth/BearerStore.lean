import SvcAuth.BearerContract
import SvcAuth.InterleaveSolo
import SvcAuth.Service

/-! The two ends of the bearer bucket: publishers that put sealed entries into it and take
them out, and the service, which looks up what a request presents. The bucket holds JSON
values under its keys, and others may write to it too. -/
namespace SvcAuth
open Interleave

section Publisher

inductive BearerPublishError
  | Seal (message : String)
  | Key (message : String)
  | Put (message : String)
  | Delete (message : String)
  deriving DecidableEq, Repr

def BearerPublishError.toString : BearerPublishError → String
  | .Seal message => "could not seal the bearer entry: " ++ message
  | .Key message => "the bearer kv key is invalid: " ++ message
  | .Put message => "could not upsert the sealed bearer: " ++ message
  | .Delete message => "could not retract the sealed bearer: " ++ message

variable (W : ContractDeps) (key : BearerSealKey)

def bearerKvKey (token : String) : Except BearerPublishError KvKey :=
  (W.kvKeyNew (bearerTokenKvKey W token)).mapError .Key

def putBearer (token : String) (entry : BearerEntry) :
    WireAction (Except BearerPublishError Unit) := do
  match ← SealedBearer.seal W key token entry with
  | .error e => return .error (.Seal e.toString)
  | .ok sealed =>
    match bearerKvKey W token with
    | .error e => return .error e
    | .ok kvKey =>
      match ← Prog.op (S := WireCalls) (.put kvKey sealed) with
      | .error e => return .error (.Put (W.fabricErrorToString e))
      | .ok () => return .ok ()

def deleteBearer (token : String) : WireAction (Except BearerPublishError Unit) :=
  match bearerKvKey W token with
  | .error e => return .error e
  | .ok kvKey => do
    match ← Prog.op (S := WireCalls) (.retract kvKey) with
    | .error e => return .error (.Delete (W.fabricErrorToString e))
    | .ok () => return .ok ()

inductive PublisherCall
  | putBearer (token : String) (entry : BearerEntry)
  | deleteBearer (token : String)
  deriving DecidableEq, Repr

def PublisherCall.token : PublisherCall → String
  | .putBearer token _ => token
  | .deleteBearer token => token

def PublisherCall.run : PublisherCall → WireAction (Except BearerPublishError Unit)
  | .putBearer token entry => SvcAuth.putBearer W key token entry
  | .deleteBearer token => SvcAuth.deleteBearer W token

end Publisher

section Validator

inductive BearerValidatorError
  | Key (message : String)
  | Read (e : FabricError)
  deriving DecidableEq, Repr

variable (W : ContractDeps) (key : BearerSealKey)

def BearerValidatorError.toString : BearerValidatorError → String
  | .Key message => "the presented bearer is not a valid KV key: " ++ message
  | .Read e => "reading the sealed bearer from PUBLISHED_LANGUAGE failed: " ++
    W.fabricErrorToString e

/-- `BearerValidator::resolve` from the answer of the bucket on. -/
def resolveRead (token : String) : Except FabricError (Option SealedBearer) →
    Except BearerValidatorError (Option BearerEntry)
  | .ok (some sealed) => .ok (SealedBearer.open W key token sealed).toOption
  | .ok none => .ok none
  | .error e => .error (.Read e)

def resolve (token : String) : WireAction (Except BearerValidatorError (Option BearerEntry)) :=
  match W.kvKeyNew (bearerTokenKvKey W token) with
  | .error e => return .error (.Key e)
  | .ok kvKey => do return resolveRead W key token (← Prog.op (S := WireCalls) (.get kvKey))

/-- A bearer is resolved through the bucket; all other calls of the service are as they are. -/
def carryOut : (o : Op) → WireAction o.Reply
  | .resolve token => do
    return (← SvcAuth.resolve W key token).mapError (BearerValidatorError.toString W)
  | o => Prog.op (S := WireCalls) (.service o)

/-- A request as the service answers it over the bucket. -/
def serveWire (S : AppState) (q : Request) : WireAction Response :=
  (serve W.toDeps S q).interpret (carryOut W key)

end Validator

section Bucket

/-- The world of the service, and the bytes in the published-language bucket. -/
structure WireWorld where
  service : World
  bearers : KvKey → Option Bytes

variable (W : ContractDeps)

/-- What a reader of sealed bearers finds. -/
def WireWorld.fetch (w : WireWorld) (k : KvKey) : Except FabricError (Option SealedBearer) :=
  match w.bearers k with
  | none => .ok none
  | some bytes =>
    match SealedBearer.load W bytes with
    | none => .error .Decode
    | some sealed => .ok (some sealed)

def WireWorld.store (w : WireWorld) (k : KvKey) (bytes : Option Bytes) : WireWorld :=
  { w with bearers := Function.update w.bearers k bytes }

/-- The bucket as a map from keys to JSON values. -/
inductive MapAnswers : WireWorld → (o : WireOp) → o.Reply → WireWorld → Prop
  | service {w : WireWorld} {o : Op} {r : o.Reply} {w' : World}
      (answer : Answers w.service o r w') :
      MapAnswers w (.service o) r { w with service := w' }
  | generateNonce (w : WireWorld) (nonce : Nonce) : MapAnswers w .generateNonce nonce w
  | get (w : WireWorld) (k : KvKey) : MapAnswers w (.get k) (w.fetch W k) w
  | put (w : WireWorld) (k : KvKey) (sealed : SealedBearer) :
      MapAnswers w (.put k sealed) (.ok ()) (w.store k (some (sealed.store W)))
  | retract (w : WireWorld) (k : KvKey) : MapAnswers w (.retract k) (.ok ()) (w.store k none)

/-- The bucket with its failures. -/
inductive WireAnswers : WireWorld → (o : WireOp) → o.Reply → WireWorld → Prop
  | answered {w : WireWorld} {o : WireOp} {r : o.Reply} {w' : WireWorld}
      (answer : MapAnswers W w o r w') : WireAnswers w o r w'
  | getFailed (w : WireWorld) (k : KvKey) : WireAnswers w (.get k) (.error .Unavailable) w
  | putLost (w : WireWorld) (k : KvKey) (sealed : SealedBearer) :
      WireAnswers w (.put k sealed) (.error .Unavailable) w
  | putUnacknowledged (w : WireWorld) (k : KvKey) (sealed : SealedBearer) :
      WireAnswers w (.put k sealed) (.error .Unavailable) (w.store k (some (sealed.store W)))
  | retractLost (w : WireWorld) (k : KvKey) :
      WireAnswers w (.retract k) (.error .Unavailable) w
  | retractUnacknowledged (w : WireWorld) (k : KvKey) :
      WireAnswers w (.retract k) (.error .Unavailable) (w.store k none)

end Bucket

section Executions
variable {W : ContractDeps} {key : BearerSealKey} {token : String} {entry : BearerEntry}
  {tr : List WireCalls.Event}

/-- The key of a token in the bucket. -/
def bearerKey (W : ContractDeps) (token : String) : KvKey := ⟨bearerTokenKvKey W token⟩

theorem kvKeyNew_bearerKey (W : ContractDeps) (token : String) :
    W.kvKeyNew (bearerTokenKvKey W token) = .ok (bearerKey W token) := W.kvKeyNew_bearer token

theorem bearerKvKey_ok (W : ContractDeps) (token : String) :
    bearerKvKey W token = .ok (bearerKey W token) := by
  rw [bearerKvKey, kvKeyNew_bearerKey]
  rfl

theorem resolve_eq (W : ContractDeps) (key : BearerSealKey) (token : String) :
    resolve W key token = .call (.get (bearerKey W token)) fun r =>
      .ret (resolveRead W key token r) := by
  rw [resolve, kvKeyNew_bearerKey]
  rfl

theorem resolve_ran {r : Except BearerValidatorError (Option BearerEntry)} :
    Prog.Ran (resolve W key token) tr r ↔ ∃ read, tr = [⟨.get (bearerKey W token), read⟩] ∧
      r = resolveRead W key token read := by
  rw [resolve_eq, Prog.ran_call]
  constructor
  · rintro ⟨read, rest, rfl, h⟩
    obtain ⟨rfl, rfl⟩ := Prog.ran_ret.mp h
    exact ⟨read, rfl, rfl⟩
  · rintro ⟨read, rfl, rfl⟩
    exact ⟨read, [], rfl, .ret _⟩

/-- A put that completes has stored the entry under a nonce it drew. -/
theorem putBearer_ran : Prog.Ran (putBearer W key token entry) tr (.ok ()) ↔
    ∃ json nonce sealed, W.entryToJson entry = .ok json ∧
      sealPlaintext W key token nonce json = .ok sealed ∧
      tr = [⟨.generateNonce, nonce⟩, ⟨.put (bearerKey W token) sealed, .ok ()⟩] := by
  constructor
  · intro h
    obtain ⟨result, t₁, t₂, rfl, hseal, h₁⟩ := Prog.ran_bind.mp h
    rcases seal_ran hseal with ⟨e, -, rfl, rfl⟩ | ⟨json, nonce, hjson, rfl, rfl⟩
    · obtain ⟨-, hresult⟩ := Prog.ran_ret.mp h₁
      cases hresult
    · cases hsealed : sealPlaintext W key token nonce json with
      | error e =>
        rw [hsealed] at h₁
        obtain ⟨-, hresult⟩ := Prog.ran_ret.mp h₁
        cases hresult
      | ok sealed =>
        rw [hsealed] at h₁
        simp only [bearerKvKey_ok] at h₁
        obtain ⟨answer, rest, rfl, h₂⟩ := Prog.ran_call.mp h₁
        cases answer with
        | error e =>
          obtain ⟨-, hresult⟩ := Prog.ran_ret.mp h₂
          cases hresult
        | ok done =>
          obtain ⟨rfl, -⟩ := Prog.ran_ret.mp h₂
          exact ⟨json, nonce, sealed, hjson, hsealed, rfl⟩
  · rintro ⟨json, nonce, sealed, hjson, hsealed, rfl⟩
    refine Prog.ran_bind.mpr ⟨.ok sealed, [⟨.generateNonce, nonce⟩], [_], rfl, ?_, ?_⟩
    · rw [SealedBearer.seal, hjson, ← hsealed]
      exact .call (.ret _)
    · simp only [bearerKvKey_ok]
      exact .call (.ret _)

theorem deleteBearer_ran : Prog.Ran (deleteBearer W token) tr (.ok ()) ↔
    tr = [⟨.retract (bearerKey W token), .ok ()⟩] := by
  rw [deleteBearer, bearerKvKey_ok]
  constructor
  · intro h
    obtain ⟨answer, rest, rfl, h₁⟩ := Prog.ran_call.mp h
    cases answer with
    | error e =>
      obtain ⟨-, hresult⟩ := Prog.ran_ret.mp h₁
      cases hresult
    | ok done =>
      obtain ⟨rfl, -⟩ := Prog.ran_ret.mp h₁
      rfl
  · rintro rfl
    exact .call (.ret _)

end Executions

end SvcAuth
