import SvcAuth.InterleaveProg
import SvcAuth.Dependencies

/-! The refresh-token store over the `EPHEMERAL_AUTH` bucket, as programs over the calls
the service makes: clock, UUIDs, bucket, id_token verification and bearer lookup. -/
namespace SvcAuth
open Interleave

abbrev Revision := ℕ

/-- A row of the store. Times are whole seconds. -/
structure RefreshToken where
  id : Uuid
  email : String
  familyId : Uuid
  usedAt : Option ℕ
  replacedBy : Option Uuid
  createdAt : ℕ
  deriving DecidableEq, Repr

structure RevokedFamily where
  revokedAt : ℕ
  deriving DecidableEq, Repr

/-- A value of the bucket. Neither type's JSON reads as the other. -/
inductive Entry
  | token (t : RefreshToken)
  | revoked (r : RevokedFamily)
  deriving DecidableEq, Repr

def Entry.asToken : Entry → Option RefreshToken
  | .token t => some t
  | .revoked _ => none

def Entry.asRevoked : Entry → Option RevokedFamily
  | .revoked r => some r
  | .token _ => none

structure OidcClaims where
  email : String
  deriving DecidableEq, Repr

inductive Actor
  | Human (id : Uuid)
  | Service (id : Uuid)
  deriving DecidableEq, Repr

def Actor.isHuman : Actor → Bool
  | .Human _ => true
  | .Service _ => false

def Actor.id : Actor → Uuid
  | .Human id => id
  | .Service id => id

structure BearerEntry where
  actor : Actor
  tokenId : Uuid
  deriving DecidableEq, Repr

/-- The calls a handler makes. -/
inductive Op
  | utcNow
  | nowV7
  | verifyIdToken (idToken : String)
  | get (key : KvKey)
  | put (key : KvKey) (value : Entry)
  | updateIf (key : KvKey) (value : Entry) (revision : Revision)
  | resolve (token : String)
  deriving DecidableEq, Repr

def Op.Reply : Op → Type
  | .utcNow => ℕ
  | .nowV7 => Uuid
  | .verifyIdToken _ => Except String OidcClaims
  | .get _ => Except FabricError (Option (Entry × Revision))
  | .put _ _ => Except FabricError Unit
  | .updateIf _ _ _ => Except FabricError Unit
  | .resolve _ => Except String (Option BearerEntry)

abbrev Calls : Sig := ⟨Op, Op.Reply⟩

abbrev Action := Prog Calls

/-- `Utc::now()`. -/
def utcNow : Action ℕ := .op (S := Calls) .utcNow

/-- `Uuid::now_v7()`. -/
def nowV7 : Action Uuid := .op (S := Calls) .nowV7

inductive StoreError
  | Kv (e : FabricError)
  | Key (message : String)
  | Conflict (id : Uuid)
  deriving DecidableEq, Repr

variable (D : Deps)

def StoreError.toString : StoreError → String
  | .Kv e => "EPHEMERAL_AUTH KV error: " ++ D.fabricErrorToString e
  | .Key message => "invalid KV key: " ++ message
  | .Conflict id =>
    "refresh token rotation lost the compare-and-swap race: " ++ D.uuidToString id

def refreshKey (tokenId : Uuid) : Except StoreError KvKey :=
  (D.kvKeyNew ("refresh." ++ D.uuidToString tokenId)).mapError .Key

def revokedKey (familyId : Uuid) : Except StoreError KvKey :=
  (D.kvKeyNew ("revoked." ++ D.uuidToString familyId)).mapError .Key

namespace RefreshTokenStore

def store (token : RefreshToken) : Action (Except StoreError Unit) :=
  match refreshKey D token.id with
  | .error e => return .error e
  | .ok key => do
    let reply ← Prog.op (S := Calls) (.put key (.token token))
    return Except.mapError .Kv reply

def findById (tokenId : Uuid) : Action (Except StoreError (Option (RefreshToken × Revision))) :=
  match refreshKey D tokenId with
  | .error e => return .error e
  | .ok key => do
    match ← Prog.op (S := Calls) (.get key) with
    | .error e => return .error (.Kv e)
    | .ok none => return .ok none
    | .ok (some (value, revision)) =>
      match value.asToken with
      | some row => return .ok (some (row, revision))
      | none => return .error (.Kv .Decode)

def markUsed (old : RefreshToken) (replacedBy : Uuid) (revision : Revision) :
    Action (Except StoreError Unit) :=
  match refreshKey D old.id with
  | .error e => return .error e
  | .ok key => do
    let now ← utcNow
    let token := { old with usedAt := some now, replacedBy := some replacedBy }
    match ← Prog.op (S := Calls) (.updateIf key (.token token) revision) with
    | .ok () => return .ok ()
    | .error .RevisionConflict => return .error (.Conflict old.id)
    | .error e => return .error (.Kv e)

def revokeFamily (familyId : Uuid) : Action (Except StoreError Unit) :=
  match revokedKey D familyId with
  | .error e => return .error e
  | .ok key => do
    let now ← utcNow
    let reply ← Prog.op (S := Calls) (.put key (.revoked ⟨now⟩))
    return Except.mapError .Kv reply

/-- Absent, undecodable and failed reads all answer `false`. -/
def isFamilyRevoked (familyId : Uuid) : Action Bool :=
  match revokedKey D familyId with
  | .error _ => return false
  | .ok key => do
    match ← Prog.op (S := Calls) (.get key) with
    | .ok (some (value, _)) => return value.asRevoked.isSome
    | _ => return false

end RefreshTokenStore

/-- The key a token's row lives under. -/
def rowKey (tokenId : Uuid) : KvKey := ⟨"refresh." ++ D.uuidToString tokenId⟩

/-- The key a family's revoked marker lives under. -/
def markerKey (familyId : Uuid) : KvKey := ⟨"revoked." ++ D.uuidToString familyId⟩

@[simp] theorem refreshKey_eq (u : Uuid) : refreshKey D u = .ok (rowKey D u) := by
  simp [refreshKey, rowKey, D.kvKeyNew_refresh, Except.mapError]

@[simp] theorem revokedKey_eq (u : Uuid) : revokedKey D u = .ok (markerKey D u) := by
  simp [revokedKey, markerKey, D.kvKeyNew_revoked, Except.mapError]

@[simp] theorem rowKey_inj {u v : Uuid} : rowKey D u = rowKey D v ↔ u = v := by
  simp [rowKey, D.uuidToString_injective.eq_iff]

@[simp] theorem markerKey_inj {u v : Uuid} : markerKey D u = markerKey D v ↔ u = v := by
  simp [markerKey, D.uuidToString_injective.eq_iff]

/-- The two prefixes keep rows and markers apart, even for equal UUIDs. -/
@[simp] theorem rowKey_ne_markerKey (u v : Uuid) : rowKey D u ≠ markerKey D v := by
  intro h
  have htext := congrArg (fun k => k.text.toList) h
  simp [rowKey, markerKey] at htext

@[simp] theorem markerKey_ne_rowKey (u v : Uuid) : markerKey D u ≠ rowKey D v :=
  (rowKey_ne_markerKey D v u).symm

namespace RefreshTokenStore

/-- What `findById` makes of the answer to its read. -/
def rowRead : Except FabricError (Option (Entry × Revision)) →
    Except StoreError (Option (RefreshToken × Revision))
  | .error e => .error (.Kv e)
  | .ok none => .ok none
  | .ok (some (.token row, revision)) => .ok (some (row, revision))
  | .ok (some (.revoked _, _)) => .error (.Kv .Decode)

/-- What `isFamilyRevoked` makes of the answer to its read. -/
def markerRead : Except FabricError (Option (Entry × Revision)) → Bool
  | .ok (some (.revoked _, _)) => true
  | _ => false

/-- What `markUsed` makes of the answer to its write. -/
def markAnswer (id : Uuid) : Except FabricError Unit → Except StoreError Unit
  | .ok () => .ok ()
  | .error .RevisionConflict => .error (.Conflict id)
  | .error e => .error (.Kv e)

variable {α : Type}

theorem call_congr {o : Op} {f g : o.Reply → Action α} (h : ∀ r, f r = g r) :
    (Prog.call o f : Action α) = .call o g :=
  congrArg (Prog.call (S := Calls) o) (funext h)

theorem utcNow_bind (f : ℕ → Action α) : utcNow >>= f = .call .utcNow f := rfl

theorem nowV7_bind (f : Uuid → Action α) : nowV7 >>= f = .call .nowV7 f := rfl

variable {D}

theorem store_bind (token : RefreshToken) (f : Except StoreError Unit → Action α) :
    store D token >>= f =
      .call (.put (rowKey D token.id) (.token token)) fun r => f (Except.mapError .Kv r) := by
  unfold store
  rw [refreshKey_eq]
  rfl

theorem findById_bind (id : Uuid)
    (f : Except StoreError (Option (RefreshToken × Revision)) → Action α) :
    findById D id >>= f = .call (.get (rowKey D id)) fun r => f (rowRead r) := by
  unfold findById
  rw [refreshKey_eq]
  refine call_congr fun r => ?_
  rcases r with e | _ | ⟨row | marker, revision⟩ <;> rfl

theorem markUsed_bind (old : RefreshToken) (id : Uuid) (revision : Revision)
    (f : Except StoreError Unit → Action α) :
    markUsed D old id revision >>= f = .call .utcNow fun now =>
      .call (.updateIf (rowKey D old.id)
        (.token { old with usedAt := some now, replacedBy := some id }) revision)
        fun r => f (markAnswer old.id r) := by
  unfold markUsed
  rw [refreshKey_eq]
  refine call_congr fun now => call_congr fun r => ?_
  rcases r with e | _
  · cases e <;> rfl
  · rfl

theorem revokeFamily_bind (familyId : Uuid) (f : Except StoreError Unit → Action α) :
    revokeFamily D familyId >>= f = .call .utcNow fun now =>
      .call (.put (markerKey D familyId) (.revoked ⟨now⟩)) fun r => f (Except.mapError .Kv r) := by
  unfold revokeFamily
  rw [revokedKey_eq]
  rfl

theorem isFamilyRevoked_bind (familyId : Uuid) (f : Bool → Action α) :
    isFamilyRevoked D familyId >>= f = .call (.get (markerKey D familyId)) fun r =>
      f (markerRead r) := by
  unfold isFamilyRevoked
  rw [revokedKey_eq]
  refine call_congr fun r => ?_
  rcases r with e | _ | ⟨row | marker, revision⟩ <;> rfl

end RefreshTokenStore

end SvcAuth
