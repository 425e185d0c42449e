import SvcAuth.PhaseResponses
import SvcAuth.StoreLog
import SvcAuth.TokenKinds

/-! Requests that nobody disturbs. A request whose calls are all answered, with no other
step in between, runs to its end; so a login is served, a rotation of an unused row is
granted, and one of a used row revokes the family. Runs are put together from these. -/
namespace SvcAuth
open Interleave RevisionBucket RefreshTokenStore

namespace Interleave.Config
variable {Φ W : Type}

/-- Thread `t` moves on to this phase, in this world. -/
def move (c : Config Φ W) (w : W) (t : ℕ) (ph : Φ) : Config Φ W :=
  ⟨w, Function.update c.threads t (some ph)⟩

@[simp] theorem move_world (c : Config Φ W) (w : W) (t : ℕ) (ph : Φ) : (c.move w t ph).world = w :=
  rfl

@[simp] theorem move_same (c : Config Φ W) (w : W) (t : ℕ) (ph : Φ) :
    (c.move w t ph).threads t = some ph := by
  simp [move]

theorem move_other (c : Config Φ W) (w : W) {t u : ℕ} (ph : Φ) (h : u ≠ t) :
    (c.move w t ph).threads u = c.threads u := by
  simp [move, h]

@[simp] theorem move_move (c : Config Φ W) (w w' : W) (t : ℕ) (ph ph' : Φ) :
    (c.move w t ph).move w' t ph' = c.move w' t ph' := by
  simp [move]

theorem move_here {c : Config Φ W} {t : ℕ} {ph : Φ} (h : c.threads t = some ph) :
    c.move c.world t ph = c := by
  simp [move, ← h]

@[simp] theorem initial_threads (w : W) (t : ℕ) :
    (initial w : Config Φ W).threads t = none := rfl

@[simp] theorem initial_world (w : W) : (initial w : Config Φ W).world = w := rfl

end Interleave.Config

/-- The assumption allows requests with tokens that were sent, and calls that succeed. -/
structure Permits (S : AppState) (G : Assumption) : Prop where
  arrive : ∀ w responses t q, (∀ jwt, q.refreshJwt S = some jwt → SentToClient S responses jwt) →
    G w responses (.arrive t q)
  call : ∀ w responses t o r, failed o r = false → G w responses (.call t o r)

section Permits
variable {D : Deps} {S : AppState} {G H : Assumption}

theorem permits_unrestricted : Permits S Unrestricted :=
  ⟨fun _ _ _ _ _ => trivial, fun _ _ _ _ _ _ => trivial⟩

theorem permits_faultFree : Permits S FaultFree :=
  ⟨fun _ _ _ _ _ => trivial, fun _ _ _ _ _ hr => hr⟩

theorem permits_noExpiry : Permits S NoExpiry :=
  ⟨fun _ _ _ _ _ => trivial, fun _ _ _ _ _ _ => trivial⟩

theorem permits_maxAge (maxAge : ℕ) : Permits S (MaxAge maxAge) :=
  ⟨fun _ _ _ _ _ => trivial, fun _ _ _ _ _ _ => trivial⟩

theorem permits_unforged : Permits S (Unforged D S) :=
  ⟨fun _ _ _ _ hsent jwt hjwt _ => hsent jwt hjwt, fun _ _ _ _ _ _ => trivial⟩

theorem Permits.both (hG : Permits S G) (hH : Permits S H) : Permits S (Both G H) :=
  ⟨fun w responses t q hsent => ⟨hG.arrive w responses t q hsent, hH.arrive w responses t q hsent⟩,
    fun w responses t o r hr => ⟨hG.call w responses t o r hr, hH.call w responses t o r hr⟩⟩

end Permits

variable {D : Deps} {S : AppState} {G : Assumption} {c d : PhaseState} {w w' : World} {t : ℕ}
  {ls : List Event}

section Steps

theorem PhaseSegment.arrive {q : Request} (idle : c.threads t = none)
    (allowed : G c.world (c.result (machine D S)) (.arrive t q))
    (rest : PhaseSegment D S G (c.move c.world t (start D S q)) ls d) :
    PhaseSegment D S G c (.arrive t q :: ls) d :=
  Trace.cons_iff.mpr ⟨_, ⟨.arrive idle, allowed⟩, rest⟩

/-- The thread that moved last gets its answer. -/
theorem PhaseSegment.answer {ph n : Phase} {o : Op} {k : o.Reply → Phase} {r : o.Reply}
    (waits : view D S ph = .inr ⟨o, k⟩) (next : k r = n) (answer : Answers w o r w')
    (allowed : ∀ responses, G w responses (.call t o r))
    (rest : PhaseSegment D S G (c.move w' t n) ls d) :
    PhaseSegment D S G (c.move w t ph) (.call t o r :: ls) d := by
  refine Trace.cons_iff.mpr ⟨_, ⟨.call (c.move_same w t ph) waits answer, allowed _⟩, ?_⟩
  rw [← c.move_move w w' t ph n, ← next] at rest
  exact rest

theorem PhaseSegment.passage {e : Passage} (allowed : ∀ responses, G c.world responses (.env e)) :
    PhaseSegment D S G c [.env e] ⟨c.world.pass e, c.threads⟩ :=
  Trace.one ⟨.env rfl, allowed _⟩

end Steps

section Login

/-- A login request with the id_token in its body. -/
def Request.loggingIn (idToken : String) : Request :=
  .token ⟨none, none⟩ (some ⟨some "id_token", some idToken⟩)

def loginLog (D : Deps) (t : ℕ) (idToken : String) (p : Opening) (sid : Uuid) : List Event :=
  [.arrive t (.loggingIn idToken), .call t (.verifyIdToken idToken) (.ok ⟨p.email⟩),
    .call t .utcNow p.signed, .call t .nowV7 p.id, .call t .utcNow p.refreshed,
    .call t .nowV7 p.family, .call t .utcNow p.created,
    .call t (.put (rowKey D p.id) (.token p.row)) (.ok ()), .call t .nowV7 sid]

theorem loginLog_placed (t : ℕ) (idToken : String) (p : Opening) (sid : Uuid) :
    Placed D (loginLog D t idToken p sid) t p.row :=
  List.mem_of_getElem? (i := 7) rfl

theorem start_loggingIn {idToken : String} (h : idToken ≠ "") :
    start D S (.loggingIn idToken) = .login none idToken := by
  have hsome : (some idToken).filter (fun token => !token.isEmpty) = some idToken := by simp [h]
  simp only [Request.loggingIn, start, startToken, ne_eq, not_true_eq_false, if_false, hsome]
  rfl

/-- An undisturbed login whose id_token is accepted opens a family. -/
theorem login_served (hG : Permits S G) {idToken email : String} {id family sid : Uuid}
    (idle : c.threads t = none) (htoken : idToken ≠ "") (hemail : email ≠ "")
    (hid : id ∉ c.world.minted) (hfamily : family ∉ id :: c.world.minted)
    (hsid : sid ∉ family :: id :: c.world.minted) :
    let p : Opening := ⟨email, c.world.clock, id, c.world.clock, family, c.world.clock⟩
    PhaseSegment D S G c (loginLog D t idToken p sid)
      (c.move ((((c.world.mint id).mint family).put (rowKey D id) (.token p.row)).mint sid) t
        (.done ⟨.token, none⟩ (.opened p) sid)) := by
  intro p
  refine .arrive idle (hG.arrive _ _ _ _ (by simp [Request.loggingIn, Request.refreshJwt])) ?_
  rw [start_loggingIn htoken]
  refine .answer rfl (if_neg (by simpa [p] using hemail)) (.verifyIdToken _ _ (.ok ⟨email⟩))
    (fun _ => hG.call _ _ _ _ _ rfl) ?_
  refine .answer rfl rfl (.utcNow _) (fun _ => hG.call _ _ _ _ _ rfl) ?_
  refine .answer rfl rfl (.nowV7 _ id hid) (fun _ => hG.call _ _ _ _ _ rfl) ?_
  refine .answer rfl rfl (.utcNow (c.world.mint id)) (fun _ => hG.call _ _ _ _ _ rfl) ?_
  refine .answer rfl rfl (.nowV7 _ family hfamily) (fun _ => hG.call _ _ _ _ _ rfl) ?_
  refine .answer rfl rfl (.utcNow ((c.world.mint id).mint family))
    (fun _ => hG.call _ _ _ _ _ rfl) ?_
  refine .answer rfl rfl (.put _ _ _) (fun _ => hG.call _ _ _ _ _ rfl) ?_
  refine .answer rfl rfl (.nowV7 _ sid hsid) (fun _ => hG.call _ _ _ _ _ rfl) ?_
  exact .nil _

end Login

section Rotation

/-- A refresh request with the token in its body. -/
def Request.presenting (jwt : String) : Request := .refresh ⟨none, none⟩ (some ⟨some jwt⟩)

/-- The calls of a rotation up to its row, at clock reading `now`. -/
def findLog (D : Deps) (t : ℕ) (jwt : String) (x : Held) (now : ℕ) : List Event :=
  [.arrive t (.presenting jwt), .call t .utcNow now,
    .call t (.get (rowKey D x.row.id)) (.ok (some (.token x.row, x.revision)))]

/-- The calls of a rotation up to the revocation lookup, at clock reading `now`. -/
def lookupLog (D : Deps) (t : ℕ) (jwt : String) (x : Held) (now : ℕ)
    (looked : Except FabricError (Option (Entry × Revision))) : List Event :=
  [.arrive t (.presenting jwt), .call t .utcNow now,
    .call t (.get (rowKey D x.row.id)) (.ok (some (.token x.row, x.revision))),
    .call t (.get (markerKey D x.row.familyId)) looked]

/-- The calls that sign the new tokens. -/
def signLog (t : ℕ) (id : Uuid) (now : ℕ) : List Event :=
  [.call t .utcNow now, .call t .nowV7 id, .call t .utcNow now, .call t .utcNow now]

/-- The calls that store the new row and write the old one back. -/
def commitLog (D : Deps) (t : ℕ) (x : Draft) (now : ℕ) (answer : Except FabricError Unit) :
    List Event :=
  [.call t (.put (rowKey D x.id) (.token x.successor)) (.ok ()), .call t .utcNow now,
    .call t (.updateIf (rowKey D x.held.row.id) (.token (x.replaced now)) x.held.revision) answer]

/-- The calls that revoke a family over a row of it. -/
def revokeLog (D : Deps) (t : ℕ) (f : Uuid) (now : ℕ) (sid : Uuid) : List Event :=
  [.call t .utcNow now, .call t (.put (markerKey D f) (.revoked ⟨now⟩)) (.ok ()),
    .call t .nowV7 sid]

theorem lookupLog_found (t : ℕ) (jwt : String) (x : Held) (now : ℕ)
    (looked : Except FabricError (Option (Entry × Revision))) :
    Found D (lookupLog D t jwt x now looked) t x :=
  List.mem_of_getElem? (i := 2) rfl

theorem commitLog_committed (t : ℕ) (x : Draft) (now : ℕ) :
    Committed D (commitLog D t x now (.ok ())) t (x.replaced now) :=
  ⟨x.held.revision, List.mem_of_getElem? (i := 2) rfl⟩

theorem presenting_refreshJwt {jwt : String} (h : jwt ≠ "") :
    (Request.presenting jwt).refreshJwt S = some jwt := by
  simp [Request.presenting, Request.refreshJwt, resolveRefreshToken, h]

theorem start_presenting {jwt : String} (h : jwt ≠ "") :
    start D S (.presenting jwt) = .verify ⟨.refresh, none⟩ jwt := by
  have hjwt : resolveRefreshToken S ((some ⟨some jwt⟩ : Option RefreshRequest).getD ⟨none⟩)
      ⟨none, none⟩ = some jwt := presenting_refreshJwt h
  simp only [Request.presenting, start, startRefresh, hjwt]
  rfl

/-- A refresh token that has not lapsed verifies. -/
theorem JwtService.refreshVerdict_live {svc : JwtService} {signed now : ℕ}
    (h : ¬ svc.RefreshLapsed signed now) (email : String) (id : Uuid) :
    svc.refreshVerdict D (svc.refreshToken D email id signed) now =
      .ok (svc.refreshClaims D email id signed) := by
  obtain ⟨hsign, htime⟩ := not_or.mp h
  rw [JwtService.refreshVerdict_refreshToken, JwtService.expiryVerdict]
  exact (if_neg hsign).trans (if_neg htime)

/-- A live token that was sent brings its request to the row. -/
theorem row_reached (hG : Permits S G) {email : String} {signed : ℕ} {x : Held}
    (idle : c.threads t = none) (hlive : ¬ S.jwt.RefreshLapsed signed c.world.clock)
    (hsent : SentToClient S (c.result (machine D S)) (S.jwt.refreshToken D email x.row.id signed))
    (hread : c.world.read (rowKey D x.row.id) = some (.token x.row, x.revision)) :
    PhaseSegment D S G c (findLog D t (S.jwt.refreshToken D email x.row.id signed) x c.world.clock)
      (c.move c.world t (.lookup ⟨.refresh, none⟩ email x)) := by
  have hne := S.jwt.refreshToken_ne_empty D email x.row.id signed
  have hget : Answers c.world (.get (rowKey D x.row.id)) (.ok (some (.token x.row, x.revision)))
      c.world := by
    rw [← hread]
    exact .get _ _
  refine .arrive idle (hG.arrive _ _ _ _ fun jwt hjwt => ?_) ?_
  · rw [presenting_refreshJwt hne] at hjwt
    rwa [← Option.some.inj hjwt]
  · rw [start_presenting hne]
    refine .answer rfl (n := .find ⟨.refresh, none⟩ email x.row.id) ?_ (.utcNow _)
      (fun _ => hG.call _ _ _ _ _ rfl) ?_
    · have hjti : D.parseStr (S.jwt.refreshClaims D email x.row.id signed).jti = some x.row.id :=
        D.parseStr_toString x.row.id
      simp only [JwtService.refreshVerdict_live hlive, hjti]
      rfl
    · exact .answer rfl rfl hget (fun _ => hG.call _ _ _ _ _ rfl) (.nil _)

/-- From there it comes to look the revocation up. -/
theorem lookup_reached (hG : Permits S G) {email : String} {signed : ℕ} {x : Held}
    {looked : Except FabricError (Option (Entry × Revision))} (idle : c.threads t = none)
    (hlive : ¬ S.jwt.RefreshLapsed signed c.world.clock)
    (hsent : SentToClient S (c.result (machine D S)) (S.jwt.refreshToken D email x.row.id signed))
    (hread : c.world.read (rowKey D x.row.id) = some (.token x.row, x.revision))
    (hlook : Answers c.world (.get (markerKey D x.row.familyId)) looked c.world)
    (hlooked : ∀ rs, G c.world rs (.call t (.get (markerKey D x.row.familyId)) looked)) {ph : Phase}
    (hph : (if markerRead looked then .settle ⟨.refresh, none⟩ (.revoked x)
      else .access ⟨.refresh, none⟩ email x) = ph) :
    PhaseSegment D S G c (lookupLog D t (S.jwt.refreshToken D email x.row.id signed) x
      c.world.clock looked) (c.move c.world t ph) := by
  have hlookup : PhaseSegment D S G (c.move c.world t (.lookup ⟨.refresh, none⟩ email x))
      [.call t (.get (markerKey D x.row.familyId)) looked] (c.move c.world t ph) :=
    .answer rfl hph hlook hlooked (.nil _)
  exact Trace.trans (row_reached hG idle hlive hsent hread) hlookup

/-- A request past its lookup signs new tokens and begins to rotate. -/
theorem tokens_signed (hG : Permits S G) {y : Ctx} {email : String} {x : Held} {id : Uuid}
    (hid : id ∉ w.minted) {ph : Phase}
    (hph : beginRotate y email x w.clock id w.clock w.clock = ph) :
    PhaseSegment D S G (c.move w t (.access y email x)) (signLog t id w.clock)
      (c.move (w.mint id) t ph) := by
  refine .answer rfl rfl (.utcNow _) (fun _ => hG.call _ _ _ _ _ rfl) ?_
  refine .answer rfl rfl (.nowV7 _ id hid) (fun _ => hG.call _ _ _ _ _ rfl) ?_
  refine .answer rfl rfl (.utcNow (w.mint id)) (fun _ => hG.call _ _ _ _ _ rfl) ?_
  exact .answer rfl hph (.utcNow (w.mint id)) (fun _ => hG.call _ _ _ _ _ rfl) (.nil _)

/-- The world after a commit. -/
def World.commit (D : Deps) (w : World) (x : Draft) : World :=
  (w.put (rowKey D x.id) (.token x.successor)).put (rowKey D x.held.row.id)
    (.token (x.replaced w.clock))

/-- A commit over an unchanged row is granted. -/
theorem commit_granted (hG : Permits S G) {y : Ctx} {x : Draft}
    (hne : x.id ≠ x.held.row.id) {v : Entry}
    (hread : w.read (rowKey D x.held.row.id) = some (v, x.held.revision)) :
    PhaseSegment D S G (c.move w t (.store y x)) (commitLog D t x w.clock (.ok ()))
      (c.move (w.commit D x) t (.settle y (.granted x))) := by
  have hcurrent : (w.put (rowKey D x.id) (.token x.successor)).bucket.Current
      (rowKey D x.held.row.id) x.held.revision := by
    refine World.current_of_read (v := v) ?_
    rwa [World.put_read_other _ _ (by simpa using Ne.symm hne)]
  refine .answer rfl rfl (.put _ _ _) (fun _ => hG.call _ _ _ _ _ rfl) ?_
  refine .answer rfl rfl (.utcNow (w.put _ _)) (fun _ => hG.call _ _ _ _ _ rfl) ?_
  exact .answer rfl rfl (.updateIf _ _ _ _ hcurrent) (fun _ => hG.call _ _ _ _ _ rfl) (.nil _)

/-- A commit over a row that is no longer there meets a conflict. -/
theorem commit_refused (hG : Permits S G) {y : Ctx} {x : Draft}
    (hne : x.id ≠ x.held.row.id) (hread : w.read (rowKey D x.held.row.id) = none) :
    PhaseSegment D S G (c.move w t (.store y x))
      (commitLog D t x w.clock (.error .RevisionConflict))
      (c.move (w.put (rowKey D x.id) (.token x.successor)) t (.revokeStamp y x.held)) := by
  have hstale : ¬ (w.put (rowKey D x.id) (.token x.successor)).bucket.Current
      (rowKey D x.held.row.id) x.held.revision := by
    rintro ⟨cell, hcell, -⟩
    have hnone := hread
    rw [← World.put_read_other w (.token x.successor) (k := rowKey D x.id)
      (by simpa using Ne.symm hne), World.read, hcell] at hnone
    cases hnone
  refine .answer rfl rfl (.put _ _ _) (fun _ => hG.call _ _ _ _ _ rfl) ?_
  refine .answer rfl rfl (.utcNow (w.put _ _)) (fun _ => hG.call _ _ _ _ _ rfl) ?_
  exact .answer rfl rfl (.updateIfConflict _ _ _ _ hstale) (fun _ => hG.call _ _ _ _ _ rfl)
    (.nil _)

/-- A request that detected reuse revokes the family and ends. -/
theorem family_revoked (hG : Permits S G) {p : Route} {x : Held} {sid : Uuid}
    (hsid : sid ∉ w.minted) :
    PhaseSegment D S G (c.move w t (.revokeStamp ⟨p, none⟩ x))
      (revokeLog D t x.row.familyId w.clock sid)
      (c.move ((w.put (markerKey D x.row.familyId) (.revoked ⟨w.clock⟩)).mint sid) t
        (.done ⟨p, none⟩ (.reuse x) sid)) := by
  refine .answer rfl rfl (.utcNow _) (fun _ => hG.call _ _ _ _ _ rfl) ?_
  refine .answer rfl rfl (.put _ _ _) (fun _ => hG.call _ _ _ _ _ rfl) ?_
  exact .answer rfl rfl (.nowV7 _ sid hsid) (fun _ => hG.call _ _ _ _ _ rfl) (.nil _)

/-- A settled request without a session gets one and ends. -/
theorem settled (hG : Permits S G) {p : Route} {o : Outcome} {sid : Uuid}
    (hsid : sid ∉ w.minted) :
    PhaseSegment D S G (c.move w t (.settle ⟨p, none⟩ o)) [.call t .nowV7 sid]
      (c.move (w.mint sid) t (.done ⟨p, none⟩ o sid)) :=
  .answer rfl rfl (.nowV7 _ sid hsid) (fun _ => hG.call _ _ _ _ _ rfl) (.nil _)

/-- The draft of a rotation whose readings of the clock are all one. -/
def Draft.begun (x : Held) (unused : x.row.usedAt = none) (email : String) (id : Uuid) (now : ℕ) :
    Draft :=
  ⟨x, unused, email, now, id, now, now⟩

/-- What a rotation does up to its commit. -/
def draftLog (D : Deps) (t : ℕ) (jwt : String) (x : Draft) (now : ℕ)
    (looked : Except FabricError (Option (Entry × Revision))) : List Event :=
  lookupLog D t jwt x.held now looked ++ signLog t x.id now

theorem draftLog_found (t : ℕ) (jwt : String) (x : Draft) (now : ℕ)
    (looked : Except FabricError (Option (Entry × Revision))) :
    Found D (draftLog D t jwt x now looked) t x.held :=
  List.mem_append_left _ (lookupLog_found _ _ _ _ _)

def replayLog (D : Deps) (t : ℕ) (jwt : String) (x : Held) (id : Uuid) (now : ℕ) (sid : Uuid) :
    List Event :=
  lookupLog D t jwt x now (.ok none) ++ signLog t id now ++ revokeLog D t x.row.familyId now sid

section Presenting
variable {email : String} {signed : ℕ} {x : Held} {id sid : Uuid}

/-- A live token whose row is unused comes as far as its commit, if its lookup sees no
marker. -/
theorem rotation_drafted (hG : Permits S G)
    {looked : Except FabricError (Option (Entry × Revision))} (unused : x.row.usedAt = none)
    (idle : c.threads t = none) (hlive : ¬ S.jwt.RefreshLapsed signed c.world.clock)
    (hsent : SentToClient S (c.result (machine D S)) (S.jwt.refreshToken D email x.row.id signed))
    (hread : c.world.read (rowKey D x.row.id) = some (.token x.row, x.revision))
    (hlook : Answers c.world (.get (markerKey D x.row.familyId)) looked c.world)
    (hlooked : ∀ rs, G c.world rs (.call t (.get (markerKey D x.row.familyId)) looked))
    (hunseen : markerRead looked = false) (hid : id ∉ c.world.minted) :
    PhaseSegment D S G c (draftLog D t (S.jwt.refreshToken D email x.row.id signed)
        (.begun x unused email id c.world.clock) c.world.clock looked)
      (c.move (c.world.mint id) t
        (.store ⟨.refresh, none⟩ (.begun x unused email id c.world.clock))) := by
  refine Trace.trans (lookup_reached hG idle hlive hsent hread hlook hlooked
    (if_neg (by simp [hunseen]))) ?_
  exact tokens_signed hG hid (dif_pos unused)

/-- A live token whose row is used revokes the family. -/
theorem replay_revokes (hG : Permits S G) (used : x.row.usedAt ≠ none)
    (idle : c.threads t = none) (hlive : ¬ S.jwt.RefreshLapsed signed c.world.clock)
    (hsent : SentToClient S (c.result (machine D S)) (S.jwt.refreshToken D email x.row.id signed))
    (hread : c.world.read (rowKey D x.row.id) = some (.token x.row, x.revision))
    (hmarker : c.world.read (markerKey D x.row.familyId) = none)
    (hid : id ∉ c.world.minted) (hsid : sid ∉ id :: c.world.minted) :
    PhaseSegment D S G c (replayLog D t (S.jwt.refreshToken D email x.row.id signed) x id
        c.world.clock sid)
      (c.move (((c.world.mint id).put (markerKey D x.row.familyId)
          (.revoked ⟨c.world.clock⟩)).mint sid) t (.done ⟨.refresh, none⟩ (.reuse x) sid)) := by
  have hlook : Answers c.world (.get (markerKey D x.row.familyId)) (.ok none) c.world := by
    rw [← hmarker]
    exact .get _ _
  have hsigned := Trace.trans (lookup_reached hG idle hlive hsent hread hlook
    (fun _ => hG.call _ _ _ _ _ rfl) (if_neg Bool.false_ne_true))
    (tokens_signed hG hid (dif_neg used))
  exact Trace.trans hsigned (family_revoked (w := c.world.mint id) hG hsid)

/-- A live token whose family is revoked is refused. -/
theorem revoked_refused (hG : Permits S G) {m : RevokedFamily} {rev : Revision}
    (idle : c.threads t = none) (hlive : ¬ S.jwt.RefreshLapsed signed c.world.clock)
    (hsent : SentToClient S (c.result (machine D S)) (S.jwt.refreshToken D email x.row.id signed))
    (hread : c.world.read (rowKey D x.row.id) = some (.token x.row, x.revision))
    (hmarker : c.world.read (markerKey D x.row.familyId) = some (.revoked m, rev))
    (hsid : sid ∉ c.world.minted) :
    PhaseSegment D S G c (lookupLog D t (S.jwt.refreshToken D email x.row.id signed) x
        c.world.clock (.ok (some (.revoked m, rev))) ++ [.call t .nowV7 sid])
      (c.move (c.world.mint sid) t (.done ⟨.refresh, none⟩ (.revoked x) sid)) := by
  have hlook : Answers c.world (.get (markerKey D x.row.familyId)) (.ok (some (.revoked m, rev)))
      c.world := by
    rw [← hmarker]
    exact .get _ _
  exact Trace.trans (lookup_reached hG idle hlive hsent hread hlook
    (fun _ => hG.call _ _ _ _ _ rfl) (if_pos rfl)) (settled hG hsid)

end Presenting

/-- A draft whose row is still as it was read is committed, and its tokens handed out. -/
theorem draft_served (hG : Permits S G) {x : Draft} {v : Entry} {sid : Uuid}
    (hne : x.id ≠ x.held.row.id)
    (hread : w.read (rowKey D x.held.row.id) = some (v, x.held.revision)) (hsid : sid ∉ w.minted) :
    PhaseSegment D S G (c.move w t (.store ⟨.refresh, none⟩ x))
      (commitLog D t x w.clock (.ok ()) ++ [.call t .nowV7 sid])
      (c.move ((w.commit D x).mint sid) t (.done ⟨.refresh, none⟩ (.granted x) sid)) :=
  Trace.trans (commit_granted hG hne hread) (settled (w := w.commit D x) hG hsid)

end Rotation

section Ends
variable {y : Ctx} {o : Outcome} {sid : Uuid} {a b : String}

theorem view_done (y : Ctx) (o : Outcome) (sid : Uuid) : view D S (.done y o sid) =
    .inl (withSession D S (respond D S y o) sid) := rfl

theorem done_responds (ht : c.threads t = some (.done y o sid)) :
    c.result (machine D S) t = some (withSession D S (respond D S y o) sid) :=
  finished_iff.mpr ⟨_, ht, view_done y o sid⟩

theorem sent_by_done (ht : c.threads t = some (.done y o sid))
    (ho : o.tokens D S = some (a, b)) : SentToClient S (c.result (machine D S)) b :=
  ⟨t, _, done_responds ht,
    (sets_refresh (view_done y o sid) (tokens_ne_empty ho).2).mpr ⟨o, a, rfl, ho⟩⟩

theorem done_grants (ho : o.tokens D S = some (a, b)) :
    Grants S (withSession D S (respond D S y o) sid) :=
  (grants_iff (view_done y o sid)).mpr ⟨o, a, b, rfl, ho⟩

theorem found_of_done (h : PhaseSegment D S G c ls d) (ht : d.threads t = some (.done y o sid))
    {x z : Held} (ho : o.held = some x) (hz : Found D ls t z) : z = x := by
  obtain ⟨ph, ht', hheld⟩ := hz.held h
  rw [ht] at ht'
  cases ht'
  exact Option.some.inj (hheld.symm.trans ho)

end Ends

end SvcAuth
