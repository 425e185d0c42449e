import SvcAuth.InterleaveSolo
import SvcAuth.FirstFamily
import SvcAuth.PhaseFollows
import SvcAuth.RotationPaths

/-! What logout answers and what it did. Every failure on the way to the revocation shares
the answer of the revocation that was made. -/
namespace SvcAuth
open Interleave RefreshTokenStore

section Solo
variable {D : Deps} {S : AppState} {headers : HeaderMap} {tr : List Calls.Event} {r : Response}

/-- What logout answers, whatever happened. -/
def loggedOut (S : AppState) : Response :=
  clearCookies S (.json 200 (.obj [("status", .str "logged_out")]))

/-- The calls of a logout that looked no row up, found none, or found one and tried to revoke
its family. -/
inductive LogoutCalls (D : Deps) : List Calls.Event → Prop
  | unverified {tr : List Calls.Event} (quiet : ∀ k looked, (⟨.get k, looked⟩ : Calls.Event) ∉ tr) :
      LogoutCalls D tr
  | unfound {now : ℕ} {jti : Uuid} {looked : Except FabricError (Option (Entry × Revision))}
      (absent : ∀ row revision, looked ≠ .ok (some (.token row, revision))) :
      LogoutCalls D [⟨.utcNow, now⟩, ⟨.get (rowKey D jti), looked⟩]
  | found {now stamp : ℕ} {jti : Uuid} {row : RefreshToken} {revision : Revision}
      {reply : Except FabricError Unit} :
      LogoutCalls D [⟨.utcNow, now⟩, ⟨.get (rowKey D jti), .ok (some (.token row, revision))⟩,
        ⟨.utcNow, stamp⟩, ⟨.put (markerKey D row.familyId) (.revoked ⟨stamp⟩), reply⟩]

theorem logoutRevocation_ran {u : Unit} (h : Prog.Ran (logoutRevocation D S headers) tr u) :
    LogoutCalls D tr := by
  unfold logoutRevocation at h
  cases hjwt : extractRefreshCookie headers S.cookieConfig with
  | none =>
    rw [hjwt] at h
    obtain ⟨rfl, -⟩ := Prog.ran_ret.mp h
    exact .unverified (by simp)
  | some jwt =>
    rw [hjwt] at h
    simp only at h
    rw [JwtService.verifyRefreshToken_bind] at h
    obtain ⟨now, tr, rfl, h₁⟩ := Prog.ran_call.mp h
    cases hverdict : S.jwt.refreshVerdict D jwt now with
    | error e =>
      rw [hverdict] at h₁
      obtain ⟨rfl, -⟩ := Prog.ran_ret.mp h₁
      exact .unverified (by simp)
    | ok claims =>
      simp only [hverdict] at h₁
      cases hjti : D.parseStr claims.jti with
      | none =>
        rw [hjti] at h₁
        obtain ⟨rfl, -⟩ := Prog.ran_ret.mp h₁
        exact .unverified (by simp)
      | some jti =>
        simp only [hjti] at h₁
        rw [findById_bind] at h₁
        obtain ⟨looked, tr, rfl, h₂⟩ := Prog.ran_call.mp h₁
        rcases looked with e | _ | ⟨row | marker, revision⟩ <;> simp only [rowRead] at h₂
        · obtain ⟨rfl, -⟩ := Prog.ran_ret.mp h₂
          exact .unfound (by simp)
        · obtain ⟨rfl, -⟩ := Prog.ran_ret.mp h₂
          exact .unfound (by simp)
        · rw [revokeFamily_bind] at h₂
          obtain ⟨stamp, tr, rfl, h₃⟩ := Prog.ran_call.mp h₂
          obtain ⟨reply, tr, rfl, h₄⟩ := Prog.ran_call.mp h₃
          obtain ⟨rfl, -⟩ := Prog.ran_ret.mp h₄
          exact .found
        · obtain ⟨rfl, -⟩ := Prog.ran_ret.mp h₂
          exact .unfound (by simp)

theorem logoutHandler_ran (h : Prog.Ran (logoutHandler D S headers) tr r) :
    r = loggedOut S ∧ LogoutCalls D tr := by
  obtain ⟨u, t₁, t₂, rfl, hrevocation, hanswer⟩ := Prog.ran_bind.mp h
  obtain ⟨rfl, rfl⟩ := Prog.ran_ret.mp hanswer
  rw [List.append_nil]
  exact ⟨rfl, logoutRevocation_ran hrevocation⟩

end Solo

/-- A logout with a refresh token that verified, from the lookup of its row, which is in the
store then, to the step that answers it. Other requests go on meanwhile, calls fail and
entries expire as they like. -/
structure Logout (D : Deps) (S : AppState) where
  clock : ℕ
  before : List Event
  w : ServiceState
  run : Run D S Unrestricted clock before w
  t : ℕ
  headers : HeaderMap
  arrived : .arrive t (.logout headers) ∈ before
  email : String
  row : RefreshToken
  verified : Verified D S before t email row.id
  stored : w.world.RowOf D row.id row
  between : List Event
  c : ServiceState
  wait : Segment D S Unrestricted w between c
  l : Event
  d : ServiceState
  last : Segment D S Unrestricted c [l] d
  answer : Except FabricError (Option (Entry × Revision))
  after : List Event
  lookup : between ++ [l] = .call t (.get (rowKey D row.id)) answer :: after
  pending : c.response t = none
  response : Response
  answered : d.response t = some response

/-- The bucket applied the write of this step, acknowledged or not. -/
def Applied (w : World) (l : Event) (w' : World) : Prop :=
  ∃ t k v r, l = .call t (.put k v) r ∧ w' = w.put k v

namespace Logout
variable {D : Deps} {S : AppState} (g : Logout D S)

theorem last_call : ∃ o r, g.l = .call g.t o r ∧ Answers g.c.world o r g.d.world := by
  obtain ⟨c', hs, hnil⟩ := Trace.cons_iff.mp g.last
  rw [Trace.nil_iff] at hnil
  subst hnil
  obtain ⟨-, ph, ht⟩ := (Trace.arrived (Trace.trans g.run g.wait)).1 _ _
    (List.mem_append_left _ g.arrived)
  exact hs.1.answered ht g.pending g.answered

theorem calls : g.response = loggedOut S ∧
    LogoutCalls D (callsOf g.t (g.before ++ (g.between ++ [g.l]))) := by
  have hrun := Trace.trans g.run (Trace.trans g.wait g.last)
  exact logoutHandler_ran (Trace.request_ran hrun (List.mem_append_left _ g.arrived) g.answered)

theorem looked : (∃ revision, g.answer = .ok (some (.token g.row, revision))) ∨
    failed (.get (rowKey D g.row.id)) g.answer = true := by
  have hrest := Trace.trans g.wait g.last
  rw [g.lookup] at hrest
  obtain ⟨w', hs, -⟩ := Trace.cons_iff.mp hrest
  have hanswer : Answers g.w.world (.get (rowKey D g.row.id)) g.answer w'.world := hs.1.executed
  obtain ⟨revision, hread⟩ := g.stored
  rcases hanswer.of_get.2 with hok | hfailed
  · exact .inl ⟨revision, hok.trans (congrArg _ hread)⟩
  · exact .inr (by rw [hfailed]; rfl)

theorem lookup_called : (⟨.get (rowKey D g.row.id), g.answer⟩ : Calls.Event) ∈
    callsOf g.t (g.before ++ (g.between ++ [g.l])) := by
  apply mem_callsOf.mpr
  rw [g.lookup]
  exact List.mem_append_right _ (.head _)

end Logout

theorem get_answer {k k' : KvKey} {r r' : Except FabricError (Option (Entry × Revision))}
    (h : (⟨.get k, r⟩ : Calls.Event) = ⟨.get k', r'⟩) : r = r' := by
  cases h
  rfl

theorem World.put_ne (w : World) (k : KvKey) (v : Entry) : w ≠ w.put k v := by
  intro h
  have hseq : w.bucket.seq = w.bucket.seq + 1 := congrArg (fun w : World => w.bucket.seq) h
  omega

/-- A write of the marker leaves it there if it was there before or the bucket applied it. -/
theorem put_revokes_iff {D : Deps} {w w' : World} {f : Uuid} {m : RevokedFamily}
    {reply : Except FabricError Unit} {l : Event} {t : ℕ}
    (hl : l = .call t (.put (markerKey D f) (.revoked m)) reply)
    (answer : Answers w (.put (markerKey D f) (.revoked m)) reply w') :
    w'.Revoked D f ↔ w.Revoked D f ∨ Applied w l w' := by
  have hmarked : (w.put (markerKey D f) (.revoked m)).Revoked D f :=
    ⟨_, _, World.put_read_same _ _ _⟩
  cases answer with
  | put => exact ⟨fun _ => .inr ⟨_, _, _, _, hl, rfl⟩, fun _ => hmarked⟩
  | putUnacknowledged => exact ⟨fun _ => .inr ⟨_, _, _, _, hl, rfl⟩, fun _ => hmarked⟩
  | putLost =>
    constructor
    · exact fun hrevoked => .inl hrevoked
    · rintro (hrevoked | ⟨t, k, v, r, -, hput⟩)
      · exact hrevoked
      · exact absurd hput (World.put_ne _ _ _)

/-- A logout that presents a verified refresh token with a row in the store has what it says
made true exactly when the marker was there already, or the lookup of the row was answered
and the bucket applied the write of the marker. -/
theorem logout_revokes_iff (D : Deps) (S : AppState) (g : Logout D S) :
    (g.response.status = 200 → g.response.body = .obj [("status", .str "logged_out")] →
      g.d.world.Revoked D g.row.familyId) ↔
    g.c.world.Revoked D g.row.familyId ∨
      failed (.get (rowKey D g.row.id)) g.answer = false ∧ Applied g.c.world g.l g.d.world := by
  obtain ⟨o, r, hl, answer⟩ := g.last_call
  obtain ⟨hresponse, hcalls⟩ := g.calls
  have hmem := g.lookup_called
  have hend : (callsOf g.t (g.before ++ (g.between ++ [g.l]))).getLast? = some ⟨o, r⟩ := by
    rw [← List.append_assoc, callsOf_append, hl]
    simp [callsOf]
  have hproperty : (g.response.status = 200 → g.response.body = .obj [("status", .str "logged_out")] →
      g.d.world.Revoked D g.row.familyId) ↔ g.d.world.Revoked D g.row.familyId := by
    rw [hresponse]
    exact ⟨fun h => h rfl rfl, fun h _ _ => h⟩
  rw [hproperty]
  generalize callsOf g.t (g.before ++ (g.between ++ [g.l])) = tr at hcalls hmem hend
  cases hcalls with
  | unverified quiet => exact absurd hmem (quiet _ _)
  | @unfound now jti looked absent =>
    have hanswer : g.answer = looked := by
      rcases List.mem_cons.mp hmem with h | h
      · cases h
      · exact get_answer (List.mem_singleton.mp h)
    have hfailed : failed (.get (rowKey D g.row.id)) g.answer = true := by
      rcases g.looked with ⟨revision, hok⟩ | hfailed
      · exact absurd (hanswer.symm.trans hok) (absent _ _)
      · exact hfailed
    simp only [List.getLast?_cons_cons, List.getLast?_singleton, Option.some.injEq] at hend
    cases hend
    rw [answer.of_get.1, hfailed]
    simp
  | @found now stamp jti row revision reply =>
    have hanswer : g.answer = .ok (some (.token row, revision)) := by
      rcases List.mem_cons.mp hmem with h | h
      · cases h
      · rcases List.mem_cons.mp h with h | h
        · exact get_answer h
        · rcases List.mem_cons.mp h with h | h
          · cases h
          · cases List.mem_singleton.mp h
    have hrow : row = g.row := by
      rcases g.looked with ⟨revision', hok⟩ | hfailed
      · rw [hanswer] at hok
        cases hok
        rfl
      · rw [hanswer] at hfailed
        cases hfailed
    subst hrow
    have hfine : failed (.get (rowKey D g.row.id)) g.answer = false := by
      rw [hanswer]
      rfl
    simp only [List.getLast?_cons_cons, List.getLast?_singleton, Option.some.injEq] at hend
    cases hend
    rw [put_revokes_iff hl answer]
    exact or_congr_right (iff_and_self.mpr fun _ => hfine)

section Sample

/-- A logout with a live refresh token in its cookie comes to look up the row. -/
theorem logout_verifies {D : Deps} {S : AppState} {c : PhaseState} {t signed : ℕ}
    {headers : HeaderMap} {email : String} {id : Uuid} (idle : c.threads t = none)
    (hjwt : extractRefreshCookie headers S.cookieConfig =
      some (S.jwt.refreshToken D email id signed))
    (hlive : ¬ S.jwt.RefreshLapsed signed c.world.clock) :
    PhaseSegment D S Unrestricted c [.arrive t (.logout headers), .call t .utcNow c.world.clock]
      (c.move c.world t (.logoutFind id)) := by
  have hstart : start D S (.logout headers) =
      .logoutVerify (S.jwt.refreshToken D email id signed) := by
    rw [start, startLogout, hjwt]
  have hjti : D.parseStr (S.jwt.refreshClaims D email id signed).jti = some id :=
    D.parseStr_toString id
  refine .arrive idle trivial ?_
  rw [hstart]
  refine .answer rfl ?_ (.utcNow _) (fun _ => trivial) (.nil _)
  simp only [JwtService.refreshVerdict_live hlive, hjti]

theorem Sample.headers_refresh : extractRefreshCookie Sample.headers Sample.state.cookieConfig =
    some (Sample.state.jwt.refreshToken Sample.deps "user@example.com" (serial 1) Sample.moment) :=
  Sample.headers_tokens.2

theorem Sample.headers_verified {ls : List Event} {t : ℕ}
    (harrive : .arrive t (.logout Sample.headers) ∈ ls) (hnow : .call t .utcNow Sample.moment ∈ ls) :
    Verified Sample.deps Sample.state ls t "user@example.com" (serial 1) := by
  exact ⟨_, _, _, _, harrive, Sample.headers_refresh, hnow,
    JwtService.refreshVerdict_live Sample.live _ _, rfl, Sample.deps.parseStr_toString _⟩

/-- A logout after the first login whose lookup fails: it answers that the client is logged
out, and the family lives on. -/
theorem logout_unrevoked : ∃ g : Logout Sample.deps Sample.state, g.response.status = 200 ∧
    g.response.body = .obj [("status", .str "logged_out")] ∧
      ¬ g.d.world.Revoked Sample.deps g.row.familyId := by
  let looking : PhaseState := (opened Sample.deps Sample.moment).move
    (opened Sample.deps Sample.moment).world 1 (.logoutFind (serial 1))
  let closed : PhaseState := (opened Sample.deps Sample.moment).move
    (opened Sample.deps Sample.moment).world 1 (.logoutDone none)
  have hlooking : PhaseSegment Sample.deps Sample.state Unrestricted (opened Sample.deps Sample.moment)
      [.arrive 1 (.logout Sample.headers), .call 1 .utcNow Sample.moment] looking :=
    logout_verifies (opened_idle Sample.deps Sample.moment Nat.one_pos) Sample.headers_refresh
      Sample.live
  have hclosed : PhaseSegment Sample.deps Sample.state Unrestricted looking
      [.call 1 (.get (rowKey Sample.deps (serial 1))) (.error .Unavailable)] closed :=
    .answer rfl rfl (.getFailed _ _) (fun _ => trivial) (.nil _)
  obtain ⟨w, hw, hm⟩ := PhaseSegment.service (mirrors_initial _) (Trace.trans
    (opening_run Sample.deps Sample.state Sample.moment permits_unrestricted) hlooking)
  obtain ⟨d, hd, hm'⟩ := PhaseSegment.service hm hclosed
  have hpending : w.response 1 = none := by
    rw [hm.response 1, Config.result, Config.move_same]
    rfl
  have hanswered : d.response 1 = some (loggedOut Sample.state) := by
    rw [hm'.response 1]
    exact finished_iff.mpr ⟨_, Config.move_same _ _ _ _, rfl⟩
  have hstored : w.world.RowOf Sample.deps (serial 1) (firstLogin Sample.moment).row := by
    rw [hm.1]
    exact ⟨1, opened_first Sample.deps Sample.moment⟩
  let g : Logout Sample.deps Sample.state := {
    clock := Sample.moment, before := _, w := w, run := hw, t := 1, headers := Sample.headers
    arrived := List.mem_append_right _ (.head _), email := "user@example.com"
    row := (firstLogin Sample.moment).row, stored := hstored
    verified := Sample.headers_verified (List.mem_append_right _ (.head _))
      (List.mem_append_right _ (.tail _ (.head _)))
    between := [], c := w, wait := .nil _, l := _, d := d, last := hd, answer := _, after := []
    lookup := rfl, pending := hpending, response := _, answered := hanswered }
  refine ⟨g, rfl, rfl, ?_⟩
  rintro ⟨m, rev, hread⟩
  have hworld : d.world = (opened Sample.deps Sample.moment).world := hm'.1
  have hnone : d.world.read (markerKey Sample.deps (serial 2)) = none := by
    rw [hworld]
    exact opened_other Sample.deps Sample.moment (markerKey_ne_rowKey _ _ _)
  exact absurd (hnone.symm.trans hread) (by simp)

end Sample

end SvcAuth
