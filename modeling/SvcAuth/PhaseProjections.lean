import SvcAuth.PhaseMoves

/-! What a phase keeps of the past is read off by projections, and what a move does to
each of them is one lemma. -/
namespace SvcAuth
open Interleave RefreshTokenStore

section Projections

/-- The row a request has found. It is kept until the request ends. -/
def Outcome.held : Outcome → Option Held
  | .revoked h | .reuse h | .unavailable h => some h
  | .granted d => some d.held
  | _ => none

def Phase.held : Phase → Option Held
  | .lookup _ _ h | .access _ _ h | .mint _ _ h _ | .refresh _ _ h _ _ => some h
  | .created _ _ h _ _ _ | .revokeStamp _ h | .revoke _ h _ => some h
  | .store _ d | .stamp _ d | .mark _ d _ => some d.held
  | .settle _ o | .done _ o _ => o.held
  | .logoutStamp h | .logoutRevoke h _ => some h
  | .logoutDone seen => seen
  | _ => none

/-- The UUIDs a request has drawn for rows it has not tried to store yet. -/
def Phase.pending : Phase → List Uuid
  | .refresh _ _ _ _ id | .created _ _ _ _ id _ | .loginRefresh _ _ _ id => [id]
  | .loginFamily _ _ _ id _ => [id]
  | .store _ d => [d.id]
  | .loginCreated _ _ _ id _ family => [id, family]
  | .loginStore _ p => [p.id, p.family]
  | _ => []

/-- The family whose revocation a rotation has looked up and not seen. -/
def Phase.cleared : Phase → Option Uuid
  | .access _ _ h | .mint _ _ h _ | .refresh _ _ h _ _ | .created _ _ h _ _ _ =>
    some h.row.familyId
  | .store _ d | .stamp _ d | .mark _ d _ => some d.held.row.familyId
  | .settle _ (.granted d) | .done _ (.granted d) _ => some d.held.row.familyId
  | _ => none

/-- Phases that come after an attempt to store a row. -/
def Phase.pastStore : Phase → Bool
  | .stamp _ _ | .mark _ _ _ | .revokeStamp _ _ | .revoke _ _ _ => true
  | .settle _ _ | .done _ _ _ | .closed _ => true
  | _ => false

/-- The draft whose new row has been stored. -/
def Phase.draft : Phase → Option Draft
  | .stamp _ d | .mark _ d _ => some d
  | .settle _ (.granted d) | .done _ (.granted d) _ => some d
  | _ => none

/-- Phases that may come after an attempt to mark a row used. -/
def Phase.closing : Phase → Bool
  | .revokeStamp _ _ | .revoke _ _ _ => true
  | .settle _ o | .done _ o _ => o.held.isSome
  | _ => false

/-- The row for which a rotation is about to revoke the family. -/
def Phase.accused : Phase → Option Held
  | .revokeStamp _ h | .revoke _ h _ => some h
  | _ => none

/-- The email a login has verified. -/
def Phase.email : Phase → Option String
  | .loginAccess _ email | .loginMint _ email _ | .loginRefresh _ email _ _ => some email
  | .loginFamily _ email _ _ _ | .loginCreated _ email _ _ _ _ => some email
  | .loginStore _ p => some p.email
  | _ => none

/-- The email and token id a rotation has verified. -/
def Phase.claimed : Phase → Option (String × Uuid)
  | .find _ email jti => some (email, jti)
  | .lookup _ email h | .access _ email h | .mint _ email h _ | .refresh _ email h _ _ =>
    some (email, h.row.id)
  | .created _ email h _ _ _ => some (email, h.row.id)
  | .store _ d | .stamp _ d | .mark _ d _ => some (d.email, d.held.row.id)
  | .settle _ (.granted d) | .done _ (.granted d) _ => some (d.email, d.held.row.id)
  | _ => none

/-- How the phase's attempt to hand out tokens ended. -/
def Phase.outcome : Phase → Option Outcome
  | .settle _ o | .done _ o _ => some o
  | _ => none

/-- The call and answer an outcome comes from. -/
def Decides (D : Deps) (S : AppState) : Outcome → Calls.Event → Prop
  | .granted d, e => ∃ now, e =
      ⟨.updateIf (rowKey D d.held.row.id) (.token (d.replaced now)) d.held.revision, .ok ()⟩
  | .opened p, e => e = ⟨.put (rowKey D p.id) (.token p.row), .ok ()⟩
  | .reuse x, e => ∃ now r, e = ⟨.put (markerKey D x.row.familyId) (.revoked ⟨now⟩), r⟩
  | .revoked x, e => ∃ m rev, e = ⟨.get (markerKey D x.row.familyId), .ok (some (.revoked m, rev))⟩
  | .unavailable _, e => (∃ k v err, e = ⟨.put k v, .error err⟩) ∨
      ∃ k v rev err, err ≠ .RevisionConflict ∧ e = ⟨.updateIf k v rev, .error err⟩
  | .missing jti, e => e = ⟨.get (rowKey D jti), .ok none⟩
  | .unread jti, e => (∃ err, e = ⟨.get (rowKey D jti), .error err⟩) ∨
      ∃ m rev, e = ⟨.get (rowKey D jti), .ok (some (.revoked m, rev))⟩
  | .expired jwt now, e => e = ⟨.utcNow, now⟩ ∧ S.jwt.refreshVerdict D jwt now = .error .Expired
  | .invalid jwt now, e => e = ⟨.utcNow, now⟩ ∧ ∀ claims jti,
      S.jwt.refreshVerdict D jwt now = .ok claims → D.parseStr claims.jti ≠ some jti

/-- The three kinds of request. -/
inductive Kind
  | login | rotation | logout
  deriving DecidableEq, Repr

def Request.kind : Request → Kind
  | .token _ _ => .login
  | .refresh _ _ | .check _ => .rotation
  | .logout _ => .logout

def Outcome.kind : Outcome → Kind
  | .opened _ => .login
  | _ => .rotation

/-- The kind of request a phase belongs to, where it shows. -/
def Phase.kind : Phase → Option Kind
  | .verify _ _ | .find _ _ _ | .lookup _ _ _ | .access _ _ _ | .mint _ _ _ _ => some .rotation
  | .refresh _ _ _ _ _ | .created _ _ _ _ _ _ | .store _ _ | .stamp _ _ => some .rotation
  | .mark _ _ _ | .revokeStamp _ _ | .revoke _ _ _ | .accessVerify _ _ _ => some .rotation
  | .settle _ o | .done _ o _ => some o.kind
  | .logoutVerify _ | .logoutFind _ | .logoutStamp _ => some .logout
  | .logoutRevoke _ _ | .logoutDone _ => some .logout
  | .login _ _ | .loginAccess _ _ | .loginMint _ _ _ | .loginRefresh _ _ _ _ => some .login
  | .loginFamily _ _ _ _ _ | .loginCreated _ _ _ _ _ _ | .loginStore _ _ => some .login
  | .reply _ _ | .replied _ _ | .closed _ | .bearer _ => none

end Projections

section Outcomes
variable {ph : Phase} {y : Draft}

theorem granted_draft (ho : ph.outcome = some (.granted y)) : ph.draft = some y := by
  cases ph <;> cases ho <;> rfl

theorem granted_held (ho : ph.outcome = some (.granted y)) : ph.held = some y.held := by
  cases ph <;> cases ho <;> rfl

theorem granted_cleared (ho : ph.outcome = some (.granted y)) :
    ph.cleared = some y.held.row.familyId := by
  cases ph <;> cases ho <;> rfl

theorem opened_kind {p : Opening} (ho : ph.outcome = some (.opened p)) :
    ph.kind = some .login := by
  cases ph <;> cases ho <;> rfl

end Outcomes

variable {D S}

theorem Starts.held {q : Request} {ph : Phase} (h : Starts S q ph) : ph.held = none := by
  cases h <;> rfl

theorem Starts.kind {q : Request} {ph : Phase} (h : Starts S q ph) :
    ph.kind = some q.kind ∨ ph.kind = none := by
  cases h with
  | tokenRefused => exact .inr rfl
  | noSession => exact .inr rfl
  | bearer => exact .inr rfl
  | anonymous => exact .inr rfl
  | _ => exact .inl rfl

theorem Starts.claimed {q : Request} {ph : Phase} (h : Starts S q ph) : ph.claimed = none := by
  cases h <;> rfl

theorem Starts.outcome {q : Request} {ph : Phase} (h : Starts S q ph) : ph.outcome = none := by
  cases h <;> rfl

theorem Starts.email {q : Request} {ph : Phase} (h : Starts S q ph) : ph.email = none := by
  cases h <;> rfl

theorem Starts.pending {q : Request} {ph : Phase} (h : Starts S q ph) : ph.pending = [] := by
  cases h <;> rfl

theorem Starts.draft {q : Request} {ph : Phase} (h : Starts S q ph) : ph.draft = none := by
  cases h <;> rfl

theorem Starts.cleared {q : Request} {ph : Phase} (h : Starts S q ph) : ph.cleared = none := by
  cases h <;> rfl

theorem Starts.accused {q : Request} {ph : Phase} (h : Starts S q ph) : ph.accused = none := by
  cases h <;> rfl

namespace Moves
variable {ph ph' : Phase} {e : Calls.Event}

theorem kind (h : Moves D S ph e ph') : ph'.kind = ph.kind ∨ ph'.kind = none := by
  cases h with
  | replySession => exact .inr rfl
  | checked => exact .inr rfl
  | bearer => exact .inr rfl
  | loginRefused => exact .inr rfl
  | loginFailed => exact .inr rfl
  | _ => exact .inl rfl

theorem held (h : Moves D S ph e ph') :
    ph'.held = ph.held ∨ ph.held = none ∧ ∃ jti row rev,
      e = ⟨.get (rowKey D jti), .ok (some (.token row, rev))⟩ ∧ ph'.held = some ⟨row, rev⟩ := by
  cases h with
  | found => exact .inr ⟨rfl, _, _, _, rfl, rfl⟩
  | logoutFound => exact .inr ⟨rfl, _, _, _, rfl, rfl⟩
  | _ => exact .inl rfl

theorem pending (h : Moves D S ph e ph') :
    ph'.pending ⊆ ph.pending ∨ ∃ u, e = ⟨.nowV7, u⟩ ∧ ph'.pending ⊆ u :: ph.pending := by
  cases h with
  | mint => exact .inr ⟨_, rfl, by simp [Phase.pending]⟩
  | loginMint => exact .inr ⟨_, rfl, by simp [Phase.pending]⟩
  | loginFamily => exact .inr ⟨_, rfl, by simp [Phase.pending]⟩
  | _ => exact .inl (by simp [Phase.pending])

theorem cleared (h : Moves D S ph e ph') {f : Uuid} (hf : ph'.cleared = some f) :
    ph.cleared = some f ∨ ∃ r, e = ⟨.get (markerKey D f), r⟩ ∧ markerRead r = false := by
  cases h with
  | clear read =>
    cases hf
    exact .inr ⟨_, rfl, read⟩
  | used => cases hf
  | storeFailed => cases hf
  | conflict => cases hf
  | markFailed => cases hf
  | @session x o sid =>
    cases o with
    | granted d => exact .inl hf
    | _ => cases hf
  | _ => exact .inl hf

theorem email (h : Moves D S ph e ph') {email : String} (he : ph'.email = some email) :
    ph.email = some email ∨
      ∃ s tok claims, ph = .login s tok ∧ e = ⟨.verifyIdToken tok, .ok claims⟩ ∧
        claims.email = email := by
  cases h with
  | login =>
    cases he
    exact .inr ⟨_, _, _, rfl, rfl, rfl⟩
  | loginStored => cases he
  | _ => first | exact .inl he | cases he

theorem leaves_login (h : Moves D S ph e ph') : ∀ s tok, ph' ≠ .login s tok := by
  cases h with
  | _ => simp

/-- A claim is made when a token verifies; it is then carried along, and the row that is
found for it has the key that was looked up. -/
theorem claimed (h : Moves D S ph e ph') {email : String} {id : Uuid}
    (hc : ph'.claimed = some (email, id)) :
    ph.claimed = some (email, id) ∨
    (∃ x jti row rev, ph = .find x email jti ∧
      e = ⟨.get (rowKey D jti), .ok (some (.token row, rev))⟩ ∧ row.id = id) ∨
    ∃ x jwt now claims, ph = .verify x jwt ∧ e = ⟨.utcNow, now⟩ ∧
      S.jwt.refreshVerdict D jwt now = .ok claims ∧ claims.sub = email ∧
      D.parseStr claims.jti = some id := by
  cases h with
  | verified verdict parsed =>
    cases hc
    exact .inr (.inr ⟨_, _, _, _, rfl, rfl, verdict, rfl, parsed⟩)
  | found =>
    cases hc
    exact .inr (.inl ⟨_, _, _, _, rfl, rfl, rfl⟩)
  | used => cases hc
  | storeFailed => cases hc
  | conflict => cases hc
  | markFailed => cases hc
  | unread => cases hc
  | misread => cases hc
  | missing => cases hc
  | revoked => cases hc
  | @session x o sid =>
    cases o with
    | granted d => exact .inl hc
    | _ => cases hc
  | _ => exact .inl hc

theorem outcome (h : Moves D S ph e ph') {o : Outcome} (ho : ph'.outcome = some o) :
    ph.outcome = some o ∨ Decides D S o e := by
  cases h with
  | expired verdict => cases ho; exact .inr ⟨rfl, verdict⟩
  | invalid verdict => cases ho; exact .inr ⟨rfl, verdict⟩
  | unread => cases ho; exact .inr (.inl ⟨_, rfl⟩)
  | misread => cases ho; exact .inr (.inr ⟨_, _, rfl⟩)
  | missing => cases ho; exact .inr rfl
  | revoked => cases ho; exact .inr ⟨_, _, rfl⟩
  | storeFailed => cases ho; exact .inr (.inl ⟨_, _, _, rfl⟩)
  | marked => cases ho; exact .inr ⟨_, rfl⟩
  | markFailed other => cases ho; exact .inr (.inr ⟨_, _, _, _, other, rfl⟩)
  | revoke => cases ho; exact .inr ⟨_, _, rfl⟩
  | loginStored => cases ho; exact .inr rfl
  | session => exact .inl ho
  | _ => cases ho

theorem outcome_kept (h : Moves D S ph e ph') {o : Outcome} (ho : ph.outcome = some o) :
    ph'.outcome = some o := by
  cases h with
  | session => exact ho
  | _ => cases ho

theorem draft (h : Moves D S ph e ph') {d : Draft} (hd : ph'.draft = some d) :
    ph.draft = some d ∨ e = ⟨.put (rowKey D d.id) (.token d.successor), .ok ()⟩ := by
  cases h with
  | stored =>
    cases hd
    exact .inr rfl
  | @session x o sid =>
    cases o with
    | granted d => exact .inl hd
    | _ => cases hd
  | stamp => exact .inl hd
  | marked => exact .inl hd
  | _ => cases hd

theorem closing (h : Moves D S ph e ph') (hc : ph.closing = true) : ph'.closing = true := by
  cases h with
  | _ => simp_all [Phase.closing, Outcome.held]

theorem accused (h : Moves D S ph e ph') {x : Held} (hx : ph'.accused = some x) :
    ph.accused = some x ∨ x.row.usedAt ≠ none ∨ ∃ v,
      e = ⟨.updateIf (rowKey D x.row.id) v x.revision, .error .RevisionConflict⟩ := by
  cases h with
  | used used =>
    cases hx
    exact .inr (.inl used)
  | conflict =>
    cases hx
    exact .inr (.inr ⟨_, rfl⟩)
  | revokeStamp => exact .inl hx
  | _ => cases hx

/-- Who stores a row: a rotation its successor, a login the first row of its family. -/
theorem put_token {k : KvKey} {row : RefreshToken} {r : Except FabricError Unit}
    (h : Moves D S ph ⟨.put k (.token row), r⟩ ph') :
    (∃ x d, ph = .store x d ∧ k = rowKey D d.id ∧ row = d.successor) ∨
    (∃ s p, ph = .loginStore s p ∧ k = rowKey D p.id ∧ row = p.row) := by
  cases h with
  | stored => exact .inl ⟨_, _, rfl, rfl, rfl⟩
  | storeFailed => exact .inl ⟨_, _, rfl, rfl, rfl⟩
  | loginStored => exact .inr ⟨_, _, rfl, rfl, rfl⟩
  | loginFailed => exact .inr ⟨_, _, rfl, rfl, rfl⟩

theorem pastStore (h : Moves D S ph e ph') (hp : ph.pastStore = true) : ph'.pastStore = true := by
  cases h with
  | _ => first | rfl | cases hp

theorem put_pastStore {k : KvKey} {row : RefreshToken} {r : Except FabricError Unit}
    (h : Moves D S ph ⟨.put k (.token row), r⟩ ph') :
    ph.pastStore = false ∧ ph'.pastStore = true := by
  cases h with
  | _ => exact ⟨rfl, rfl⟩

/-- A stored row has a UUID of its own, and a family of its own or that of the row held. -/
theorem put_pending {k : KvKey} {row : RefreshToken} {r : Except FabricError Unit}
    (h : Moves D S ph ⟨.put k (.token row), r⟩ ph') :
    k = rowKey D row.id ∧ row.usedAt = none ∧ ph'.pending = [] ∧ row.id ∈ ph.pending ∧
      (row.familyId ∈ ph.pending ∨ ∃ x, ph.held = some x ∧ x.row.familyId = row.familyId) := by
  cases h with
  | stored => exact ⟨rfl, rfl, rfl, .head _, .inr ⟨_, rfl, rfl⟩⟩
  | storeFailed => exact ⟨rfl, rfl, rfl, .head _, .inr ⟨_, rfl, rfl⟩⟩
  | loginStored => exact ⟨rfl, rfl, rfl, .head _, .inl (.tail _ (.head _))⟩
  | loginFailed => exact ⟨rfl, rfl, rfl, .head _, .inl (.tail _ (.head _))⟩

/-- Who stores a marker: a rotation that met reuse, and a logout. -/
theorem put_revoked {k : KvKey} {m : RevokedFamily} {r : Except FabricError Unit}
    (h : Moves D S ph ⟨.put k (.revoked m), r⟩ ph') :
    ∃ held, k = markerKey D held.row.familyId ∧
      ((∃ x, ph = .revoke x held m.revokedAt) ∨ ph = .logoutRevoke held m.revokedAt) := by
  cases h with
  | revoke => exact ⟨_, rfl, .inl ⟨_, rfl⟩⟩
  | logoutRevoke => exact ⟨_, rfl, .inr rfl⟩

theorem verifyIdToken {tok : String} {r : Except String OidcClaims}
    (h : Moves D S ph ⟨.verifyIdToken tok, r⟩ ph') : ∃ s, ph = .login s tok := by
  cases h with
  | loginRefused => exact ⟨_, rfl⟩
  | login => exact ⟨_, rfl⟩

theorem updateIf {k : KvKey} {v : Entry} {rev : Revision} {r : Except FabricError Unit}
    (h : Moves D S ph ⟨.updateIf k v rev, r⟩ ph') :
    ∃ x d now, ph = .mark x d now ∧ ph'.closing = true ∧ k = rowKey D d.held.row.id ∧
      v = .token (d.replaced now) ∧ rev = d.held.revision := by
  cases h with
  | marked => exact ⟨_, _, _, rfl, rfl, rfl, rfl, rfl⟩
  | conflict => exact ⟨_, _, _, rfl, rfl, rfl, rfl, rfl⟩
  | markFailed => exact ⟨_, _, _, rfl, rfl, rfl, rfl, rfl⟩

theorem get {k : KvKey} {r : Except FabricError (Option (Entry × Revision))}
    (h : Moves D S ph ⟨.get k, r⟩ ph') :
    (∃ x email jti, ph = .find x email jti ∧ k = rowKey D jti) ∨
    (∃ x email held, ph = .lookup x email held ∧ k = markerKey D held.row.familyId) ∨
    (∃ jti, ph = .logoutFind jti ∧ k = rowKey D jti) := by
  cases h with
  | unread => exact .inl ⟨_, _, _, rfl, rfl⟩
  | misread => exact .inl ⟨_, _, _, rfl, rfl⟩
  | missing => exact .inl ⟨_, _, _, rfl, rfl⟩
  | found => exact .inl ⟨_, _, _, rfl, rfl⟩
  | revoked => exact .inr (.inl ⟨_, _, _, rfl, rfl⟩)
  | clear => exact .inr (.inl ⟨_, _, _, rfl, rfl⟩)
  | logoutMissing => exact .inr (.inr ⟨_, rfl, rfl⟩)
  | logoutFound => exact .inr (.inr ⟨_, rfl, rfl⟩)

end Moves

end SvcAuth
