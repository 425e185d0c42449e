import SvcAuth.InterleaveThreads
import SvcAuth.RevisionBucket
import SvcAuth.Handlers

/-! The running service: any number of requests in flight over one bucket and one clock.
A bucket call is atomic; it may fail, and a failed write may or may not have applied.
Between calls time passes and entries may expire. The assumptions that single results
make about a run are stated here by name. -/
namespace SvcAuth
open Interleave RevisionBucket

/-- What the requests share: the bucket, the clock, and the UUIDs drawn so far. -/
structure World where
  bucket : Bucket KvKey Entry
  clock : ℕ
  minted : List Uuid

namespace World

def initial (clock : ℕ) : World := ⟨.empty, clock, []⟩

def put (w : World) (k : KvKey) (v : Entry) : World :=
  { w with bucket := w.bucket.put w.clock k v }

/-- What a read of `k` finds. -/
def read (w : World) (k : KvKey) : Option (Entry × Revision) :=
  (w.bucket.cells k).map fun c => (c.value, c.revision)

end World

/-- How the world answers a call. -/
inductive Answers : World → (o : Op) → o.Reply → World → Prop
  | utcNow (w : World) : Answers w .utcNow w.clock w
  | nowV7 (w : World) (u : Uuid) (fresh : u ∉ w.minted) :
      Answers w .nowV7 u { w with minted := u :: w.minted }
  | verifyIdToken (w : World) (idToken : String) (r : Except String OidcClaims) :
      Answers w (.verifyIdToken idToken) r w
  | resolve (w : World) (token : String) (r : Except String (Option BearerEntry)) :
      Answers w (.resolve token) r w
  | get (w : World) (k : KvKey) : Answers w (.get k) (.ok (w.read k)) w
  | getFailed (w : World) (k : KvKey) : Answers w (.get k) (.error .Unavailable) w
  | put (w : World) (k : KvKey) (v : Entry) : Answers w (.put k v) (.ok ()) (w.put k v)
  | putLost (w : World) (k : KvKey) (v : Entry) : Answers w (.put k v) (.error .Unavailable) w
  | putUnacknowledged (w : World) (k : KvKey) (v : Entry) :
      Answers w (.put k v) (.error .Unavailable) (w.put k v)
  | updateIf (w : World) (k : KvKey) (v : Entry) (rev : Revision)
      (current : w.bucket.Current k rev) :
      Answers w (.updateIf k v rev) (.ok ()) (w.put k v)
  | updateIfConflict (w : World) (k : KvKey) (v : Entry) (rev : Revision)
      (stale : ¬ w.bucket.Current k rev) :
      Answers w (.updateIf k v rev) (.error .RevisionConflict) w
  | updateIfLost (w : World) (k : KvKey) (v : Entry) (rev : Revision) :
      Answers w (.updateIf k v rev) (.error .Unavailable) w
  | updateIfUnacknowledged (w : World) (k : KvKey) (v : Entry) (rev : Revision)
      (current : w.bucket.Current k rev) :
      Answers w (.updateIf k v rev) (.error .Unavailable) (w.put k v)

/-- Time passes and some entries expire. -/
structure Passage where
  seconds : ℕ
  expired : KvKey → Bool

def Passes (w : World) (e : Passage) (w' : World) : Prop :=
  w' = { w with clock := w.clock + e.seconds, bucket := w.bucket.drop e.expired }

def service : System Calls World Passage := ⟨Answers, Passes⟩

abbrev Event := Label Calls Request Passage

abbrev Assumption := Guard Calls Response World Passage Request

/-- The service running the handlers of the repository. -/
abbrev ServiceState := Config (Action Response) World

/-- What happens under an assumption between two states of the service. -/
abbrev Segment (D : Deps) (S : AppState) (G : Assumption) :
    ServiceState → List Event → ServiceState → Prop :=
  Trace (GuardedStep service (Prog.machine Calls Response) (serve D S) G)

/-- A run of the service from an empty bucket, with everything that happened in it. -/
abbrev Run (D : Deps) (S : AppState) (G : Assumption) (clock : ℕ) :
    List Event → ServiceState → Prop :=
  Segment D S G (.initial (.initial clock))

/-- The response request `t` ended with. -/
abbrev ServiceState.response (c : ServiceState) (t : ℕ) : Option Response :=
  c.result (Prog.machine Calls Response) t

/-- The response puts this value into a cookie of this name. -/
def Response.Sets (r : Response) (name value : String) : Prop :=
  ∃ cookie ∈ r.setCookie, cookie.name = name ∧ cookie.value = value

/-- The response carries a new access or refresh token. -/
def Grants (S : AppState) (r : Response) : Prop :=
  ∃ jwt, jwt ≠ "" ∧ (r.Sets S.cookieConfig.accessCookieName jwt ∨
    r.Sets S.cookieConfig.refreshCookieName jwt)

/-- The response renews a session: it carries a new access and a new refresh token. -/
def Response.Rotated (S : AppState) (r : Response) : Prop :=
  ∃ access refresh, access ≠ "" ∧ refresh ≠ "" ∧
    r.Sets S.cookieConfig.accessCookieName access ∧ r.Sets S.cookieConfig.refreshCookieName refresh

theorem Response.Rotated.grants {S : AppState} {r : Response} (h : r.Rotated S) : Grants S r := by
  obtain ⟨access, refresh, haccess, -, hset, -⟩ := h
  exact ⟨access, haccess, .inl hset⟩

section Assumptions

def Unrestricted : Assumption := fun _ _ _ => True

/-- The bucket failed to answer. -/
def failed : (o : Op) → o.Reply → Bool
  | .get _, .error .Unavailable => true
  | .put _ _, .error .Unavailable => true
  | .updateIf _ _ _, .error .Unavailable => true
  | _, _ => false

def FaultFree : Assumption
  | _, _, .call _ o r => failed o r = false
  | _, _, _ => True

def NoExpiry : Assumption
  | _, _, .env e => ∀ k, e.expired k = false
  | _, _, _ => True

/-- The bucket drops an entry exactly `maxAge` seconds after its last write. -/
def MaxAge (maxAge : ℕ) : Assumption
  | w, _, .env e => ∀ k c, w.bucket.cells k = some c →
      (e.expired k = true ↔ c.written + maxAge ≤ w.clock + e.seconds)
  | _, _, _ => True

/-- The refresh token a request presents, if any. -/
def Request.refreshJwt (S : AppState) : Request → Option String
  | .token _ _ => none
  | .refresh headers body => resolveRefreshToken S (body.getD ⟨none⟩) headers
  | .check headers => extractRefreshCookie headers S.cookieConfig
  | .logout headers => extractRefreshCookie headers S.cookieConfig

/-- A refresh token some response has put into a client's refresh cookie. -/
def SentToClient (S : AppState) (responses : ℕ → Option Response) (jwt : String) : Prop :=
  ∃ t r, responses t = some r ∧ r.Sets S.cookieConfig.refreshCookieName jwt

/-- Clients cannot sign: a refresh token that would verify was sent to a client before. -/
def Unforged (D : Deps) (S : AppState) : Assumption
  | _, responses, .arrive _ q => ∀ jwt, q.refreshJwt S = some jwt →
      (∃ now claims, S.jwt.refreshVerdict D jwt now = .ok claims) → SentToClient S responses jwt
  | _, _, _ => True

/-- Both assumptions at once. -/
def Both (G H : Assumption) : Assumption := fun w responses l => G w responses l ∧ H w responses l

end Assumptions

section Effects

/-- What a call would write, and where. -/
def Op.write : Op → Option (KvKey × Entry)
  | .put k v => some (k, v)
  | .updateIf k v _ => some (k, v)
  | _ => none

namespace Answers
variable {w w' : World} {o : Op} {r : o.Reply} {k : KvKey} {v : Entry} {rev : Revision}

theorem clock (h : Answers w o r w') : w'.clock = w.clock := by
  cases h <;> rfl

theorem bucket (h : Answers w o r w') :
    w'.bucket = w.bucket ∨ ∃ k v, o.write = some (k, v) ∧
      w'.bucket = w.bucket.put w.clock k v ∧ ∀ rev, o = .updateIf k v rev → w.bucket.Current k rev := by
  cases h with
  | put => exact .inr ⟨_, _, rfl, rfl, by simp⟩
  | putUnacknowledged => exact .inr ⟨_, _, rfl, rfl, by simp⟩
  | updateIf _ _ _ current => exact .inr ⟨_, _, rfl, rfl, by simpa using current⟩
  | updateIfUnacknowledged _ _ _ current => exact .inr ⟨_, _, rfl, rfl, by simpa using current⟩
  | _ => exact .inl rfl

theorem minted_mono (h : Answers w o r w') {u : Uuid} (hu : u ∈ w.minted) : u ∈ w'.minted := by
  cases h with
  | nowV7 u' fresh => exact List.mem_cons_of_mem _ hu
  | _ => exact hu

theorem nowV7_fresh {u : Uuid} (h : Answers w .nowV7 u w') :
    u ∉ w.minted ∧ w'.minted = u :: w.minted := by
  cases h with
  | nowV7 _ fresh => exact ⟨fresh, rfl⟩

theorem of_get {r : Except FabricError (Option (Entry × Revision))} (h : Answers w (.get k) r w') :
    w' = w ∧ (r = .ok (w.read k) ∨ r = .error .Unavailable) := by
  cases h with
  | get => exact ⟨rfl, .inl rfl⟩
  | getFailed => exact ⟨rfl, .inr rfl⟩

theorem put_ok (h : Answers w (.put k v) (.ok ()) w') : w' = w.put k v := by
  cases h
  rfl

theorem put_answer {r : Except FabricError Unit} (h : Answers w (.put k v) r w') :
    r = .ok () ∨ failed (.put k v) r = true := by
  cases h with
  | put => exact .inl rfl
  | putLost => exact .inr rfl
  | putUnacknowledged => exact .inr rfl

theorem updateIf_answer {r : Except FabricError Unit} (h : Answers w (.updateIf k v rev) r w') :
    r = .ok () ∨ r = .error .RevisionConflict ∨ failed (.updateIf k v rev) r = true := by
  cases h with
  | updateIf => exact .inl rfl
  | updateIfConflict => exact .inr (.inl rfl)
  | updateIfLost => exact .inr (.inr rfl)
  | updateIfUnacknowledged => exact .inr (.inr rfl)

theorem updateIf_ok (h : Answers w (.updateIf k v rev) (.ok ()) w') :
    w.bucket.Current k rev ∧ w' = w.put k v := by
  cases h with
  | updateIf _ _ _ current => exact ⟨current, rfl⟩

theorem updateIf_conflict (h : Answers w (.updateIf k v rev) (.error .RevisionConflict) w') :
    ¬ w.bucket.Current k rev := by
  cases h with
  | updateIfConflict _ _ _ stale => exact stale

end Answers

namespace World

theorem read_eq_some {w : World} {k : KvKey} {v : Entry} {rev : Revision}
    (h : w.read k = some (v, rev)) :
    ∃ cell, w.bucket.cells k = some cell ∧ cell.value = v ∧ cell.revision = rev := by
  unfold read at h
  rw [Option.map_eq_some_iff] at h
  obtain ⟨cell, hcell, heq⟩ := h
  cases heq
  exact ⟨cell, hcell, rfl, rfl⟩

/-- The store holds this row for the token. -/
def RowOf (D : Deps) (w : World) (id : Uuid) (row : RefreshToken) : Prop :=
  ∃ rev, w.read (rowKey D id) = some (.token row, rev)

/-- The store holds the revoked marker of the family. -/
def Revoked (D : Deps) (w : World) (f : Uuid) : Prop :=
  ∃ m rev, w.read (markerKey D f) = some (.revoked m, rev)

theorem rowOf_iff {D : Deps} {w : World} {id : Uuid} {row : RefreshToken} : w.RowOf D id row ↔
    ∃ cell, w.bucket.cells (rowKey D id) = some cell ∧ cell.value = .token row := by
  constructor
  · rintro ⟨rev, hread⟩
    obtain ⟨cell, hcell, hv, -⟩ := read_eq_some hread
    exact ⟨cell, hcell, hv⟩
  · rintro ⟨cell, hcell, hv⟩
    exact ⟨cell.revision, by simp [read, hcell, hv]⟩

end World

end Effects

namespace World
variable {w : World} {k j : KvKey} {v : Entry} {u : Uuid} {rev : Revision}

/-- A UUID is drawn. -/
def mint (w : World) (u : Uuid) : World := { w with minted := u :: w.minted }

@[simp] theorem mint_clock (w : World) (u : Uuid) : (w.mint u).clock = w.clock := rfl

@[simp] theorem mint_minted (w : World) (u : Uuid) : (w.mint u).minted = u :: w.minted := rfl

@[simp] theorem mint_seq (w : World) (u : Uuid) : (w.mint u).bucket.seq = w.bucket.seq := rfl

@[simp] theorem mint_read (w : World) (u : Uuid) (k : KvKey) : (w.mint u).read k = w.read k := rfl

@[simp] theorem put_clock (w : World) (k : KvKey) (v : Entry) : (w.put k v).clock = w.clock := rfl

@[simp] theorem put_minted (w : World) (k : KvKey) (v : Entry) : (w.put k v).minted = w.minted := rfl

@[simp] theorem put_seq (w : World) (k : KvKey) (v : Entry) :
    (w.put k v).bucket.seq = w.bucket.seq + 1 := rfl

@[simp] theorem put_read_same (w : World) (k : KvKey) (v : Entry) :
    (w.put k v).read k = some (v, w.bucket.seq + 1) := by
  simp [read, put]

theorem put_read_other (w : World) (v : Entry) (h : j ≠ k) : (w.put k v).read j = w.read j := by
  simp [read, put, Bucket.put_other _ _ _ h]

@[simp] theorem initial_clock (clock : ℕ) : (initial clock).clock = clock := rfl

@[simp] theorem initial_minted (clock : ℕ) : (initial clock).minted = [] := rfl

@[simp] theorem initial_seq (clock : ℕ) : (initial clock).bucket.seq = 0 := rfl

@[simp] theorem initial_read (clock : ℕ) (k : KvKey) : (initial clock).read k = none := rfl

/-- Time passes. -/
def pass (w : World) (e : Passage) : World :=
  { w with clock := w.clock + e.seconds, bucket := w.bucket.drop e.expired }

@[simp] theorem pass_clock (w : World) (e : Passage) : (w.pass e).clock = w.clock + e.seconds := rfl

@[simp] theorem pass_minted (w : World) (e : Passage) : (w.pass e).minted = w.minted := rfl

theorem pass_read_kept (w : World) {e : Passage} (h : e.expired k = false) :
    (w.pass e).read k = w.read k := by
  simp [read, pass, Bucket.drop_kept _ h]

theorem pass_read_gone (w : World) {e : Passage} (h : e.expired k = true) :
    (w.pass e).read k = none := by
  simp [read, pass, Bucket.drop, h]

theorem current_of_read (h : w.read k = some (v, rev)) : w.bucket.Current k rev := by
  obtain ⟨cell, hcell, -, hrev⟩ := read_eq_some h
  exact ⟨cell, hcell, hrev⟩

end World

end SvcAuth
