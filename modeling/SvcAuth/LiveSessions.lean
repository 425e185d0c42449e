import SvcAuth.RotationPaths
import SvcAuth.Undisturbed

/-! A refresh token of a live session presented on either path, while other requests leave
the session alone. It rotates, or a call on the way to it fails and the session is as it
was; once the row is used or the family revoked it does neither. -/
namespace SvcAuth
open Interleave RefreshTokenStore

section Others
variable {D : Deps} {id f : Uuid} {w w' w'' : World} {e : Calls.Event} {tr : List Calls.Event}

/-- Nothing has happened to the row of the token and to the marker of the family. -/
structure SessionKept (D : Deps) (id f : Uuid) (w w' : World) : Prop where
  row : w'.read (rowKey D id) = w.read (rowKey D id)
  marker : w'.read (markerKey D f) = w.read (markerKey D f)
  minted : w.minted ⊆ w'.minted

/-- A call is answered, after others did what leaves the session alone. -/
def AmongOthers (D : Deps) (id f : Uuid) (w : World) (e : Calls.Event) (w' : World) : Prop :=
  ∃ w₀, SessionKept D id f w w₀ ∧ Answers w₀ e.1 e.2 w'

/-- The same, where a call that fails was not applied. -/
def Unapplied (D : Deps) (id f : Uuid) (w : World) (e : Calls.Event) (w' : World) : Prop :=
  ∃ w₀, SessionKept D id f w w₀ ∧ Answers w₀ e.1 e.2 w' ∧ (failed e.1 e.2 = true → w' = w₀)

/-- The bucket answered every call. -/
def Faultless (tr : List Calls.Event) : Prop := ∀ e ∈ tr, failed e.1 e.2 = false

/-- The call writes to neither of the two keys. -/
def Op.Spares (D : Deps) (id f : Uuid) (o : Op) : Prop :=
  ∀ k v, o.write = some (k, v) → rowKey D id ≠ k ∧ markerKey D f ≠ k

theorem SessionKept.refl (D : Deps) (id f : Uuid) (w : World) : SessionKept D id f w w :=
  ⟨rfl, rfl, fun _ h => h⟩

theorem SessionKept.trans (h : SessionKept D id f w w') (g : SessionKept D id f w' w'') :
    SessionKept D id f w w'' :=
  ⟨g.row.trans h.row, g.marker.trans h.marker, fun _ hu => g.minted (h.minted hu)⟩

theorem SessionKept.revoked (h : SessionKept D id f w w') : w'.Revoked D f ↔ w.Revoked D f := by
  simp only [World.Revoked, h.marker]

theorem Answers.read_other {o : Op} {r : o.Reply} (h : Answers w o r w') {j : KvKey}
    (hj : ∀ k v, o.write = some (k, v) → j ≠ k) : w'.read j = w.read j := by
  rcases h.bucket with hsame | ⟨k, v, ho, hput, -⟩
  · simp [World.read, hsame]
  · simp [World.read, hput, RevisionBucket.Bucket.put_other _ _ _ (hj k v ho)]

theorem Answers.kept {o : Op} {r : o.Reply} (h : Answers w o r w') (ho : o.Spares D id f) :
    SessionKept D id f w w' where
  row := h.read_other fun k v hw => (ho k v hw).1
  marker := h.read_other fun k v hw => (ho k v hw).2
  minted _ hu := h.minted_mono hu

theorem Unapplied.kept (h : Unapplied D id f w e w') (ho : e.1.Spares D id f) :
    SessionKept D id f w w' := by
  obtain ⟨w₀, hkept, hanswer, -⟩ := h
  exact hkept.trans (hanswer.kept ho)

theorem Unapplied.failed_kept (h : Unapplied D id f w e w') (hfailed : failed e.1 e.2 = true) :
    SessionKept D id f w w' := by
  obtain ⟨w₀, hkept, -, hlost⟩ := h
  rw [hlost hfailed]
  exact hkept

theorem unapplied_kept (h : Trace (Unapplied D id f) w tr w')
    (hspares : ∀ e ∈ tr, e.1.Spares D id f) : SessionKept D id f w w' := by
  induction h with
  | nil => exact .refl _ _ _ _
  | snoc prior last ih =>
    have hbefore := ih fun e he => hspares e (List.mem_append_left _ he)
    exact hbefore.trans (last.kept (hspares _ List.mem_concat_self))

theorem Faultless.unapplied (hfine : Faultless tr) (h : Trace (AmongOthers D id f) w tr w') :
    Trace (Unapplied D id f) w tr w' := by
  refine h.mono fun w e w' he hstep => ?_
  obtain ⟨w₀, hkept, hanswer⟩ := hstep
  refine ⟨w₀, hkept, hanswer, fun hfailed => ?_⟩
  rw [hfine e he] at hfailed
  cases hfailed

theorem spares_get (k : KvKey) : (Op.get k).Spares D id f := by
  intro _ _ hw
  cases hw

theorem spares_utcNow : Op.utcNow.Spares D id f := by
  intro _ _ hw
  cases hw

theorem spares_nowV7 : Op.nowV7.Spares D id f := by
  intro _ _ hw
  cases hw

theorem spares_put {id' : Uuid} (row : RefreshToken) (h : id' ≠ id) :
    (Op.put (rowKey D id') (.token row)).Spares D id f := by
  intro k v hw
  cases hw
  exact ⟨fun heq => h ((rowKey_inj D).mp heq).symm, markerKey_ne_rowKey D _ _⟩

end Others

section Rotation
variable {D : Deps} {S : AppState} {w w' : World} {row new : RefreshToken} {revision : Revision}
  {tr : List Calls.Event}

/-- The store has the row at this revision, and the UUID of its token has been drawn. -/
structure Standing (D : Deps) (w : World) (row : RefreshToken) (revision : Revision) : Prop where
  stored : w.read (rowKey D row.id) = some (.token row, revision)
  drawn : row.id ∈ w.minted

theorem Standing.kept {f : Uuid} (h : Standing D w row revision)
    (hkept : SessionKept D row.id f w w') : Standing D w' row revision :=
  ⟨hkept.row.trans h.stored, hkept.minted h.drawn⟩

/-- A lookup of the row finds it, or fails. -/
theorem Standing.found {f : Uuid} {found : Except FabricError (Option (Entry × Revision))}
    (h : Standing D w row revision)
    (hstep : Unapplied D row.id f w ⟨.get (rowKey D row.id), found⟩ w') :
    found = .ok (some (.token row, revision)) ∨ failed (.get (rowKey D row.id)) found = true := by
  obtain ⟨w₀, hkept, hanswer, -⟩ := hstep
  rcases hanswer.of_get.2 with hok | rfl
  · exact .inl (hok.trans (congrArg _ (hkept.row.trans h.stored)))
  · exact .inr rfl

/-- What the revocation lookup makes of its answer: a failure counts as not revoked. -/
theorem looked_revoked {id f : Uuid} {looked : Except FabricError (Option (Entry × Revision))}
    (hstep : Unapplied D id f w ⟨.get (markerKey D f), looked⟩ w') :
    markerRead looked = true ↔ failed (.get (markerKey D f)) looked = false ∧ w.Revoked D f := by
  obtain ⟨w₀, hkept, hanswer, -⟩ := hstep
  rcases hanswer.of_get.2 with rfl | rfl
  · have hread := hkept.marker
    unfold World.Revoked
    rw [← hread]
    rcases w₀.read (markerKey D f) with _ | ⟨row | m, rev⟩ <;> simp [markerRead, failed]
  · simp [markerRead, failed]

theorem Standing.fresh {f : Uuid} {newId : Op.nowV7.Reply} (h : Standing D w row revision)
    (hstep : Unapplied D row.id f w ⟨.nowV7, newId⟩ w') : newId ≠ row.id := by
  obtain ⟨w₀, hkept, hanswer, -⟩ := hstep
  rintro rfl
  exact hanswer.nowV7_fresh.1 (hkept.minted h.drawn)

/-- A rotation of an unused row marks it used, or a call fails and the row stays. -/
theorem rotate_live {f : Uuid} {r : Except RotationError Unit}
    (hcalls : RotateCalls D row revision new tr r) (hstanding : Standing D w row revision)
    (hunused : row.usedAt = none) (hnew : new.id ≠ row.id)
    (hworlds : Trace (Unapplied D row.id f) w tr w') :
    (∃ e, r = .error (.Store e) ∧ (∃ e ∈ tr, failed e.1 e.2 = true ∧ e.1 ≠ .get (markerKey D f)) ∧
        SessionKept D row.id f w w') ∨
      r = .ok () ∧ Faultless tr ∧ w'.read (markerKey D f) = w.read (markerKey D f) := by
  have hstored : (Op.put (rowKey D new.id) (.token new)).Spares D row.id f := spares_put _ hnew
  cases hcalls with
  | reused used => simp [hunused] at used
  | @unstored e =>
    obtain ⟨w₁, hput, hnil⟩ := Trace.cons_iff.mp hworlds
    rw [Trace.nil_iff] at hnil
    subst hnil
    obtain ⟨w₀, -, hanswer, -⟩ := id hput
    have hfailed : failed (.put (rowKey D new.id) (.token new)) (.error e) = true := by
      rcases hanswer.put_answer with hok | hfailed
      · cases hok
      · exact hfailed
    exact .inl ⟨_, rfl, ⟨_, .head _, hfailed, by simp⟩, hput.kept hstored⟩
  | @unmarked now e unused other =>
    obtain ⟨w₁, hput, hrest⟩ := Trace.cons_iff.mp hworlds
    obtain ⟨w₂, hnow, hrest⟩ := Trace.cons_iff.mp hrest
    obtain ⟨w₃, hmark, hnil⟩ := Trace.cons_iff.mp hrest
    rw [Trace.nil_iff] at hnil
    subst hnil
    obtain ⟨w₀, -, hanswer, -⟩ := id hmark
    have hfailed := hanswer.updateIf_answer.resolve_left (by simp)
    have hfailed := hfailed.resolve_left (by simpa using other)
    have hkept := ((hput.kept hstored).trans (hnow.kept spares_utcNow)).trans
      (hmark.failed_kept hfailed)
    exact .inl ⟨_, rfl, ⟨_, .tail _ (.tail _ (.head _)), hfailed, by simp⟩, hkept⟩
  | overtaken =>
    -- nobody has written to the row since it was read
    exfalso
    obtain ⟨w₁, hput, hrest⟩ := Trace.cons_iff.mp hworlds
    obtain ⟨w₂, hnow, hrest⟩ := Trace.cons_iff.mp hrest
    obtain ⟨w₃, ⟨w₀, hothers, hanswer, -⟩, -⟩ := Trace.cons_iff.mp hrest
    have hkept := ((hput.kept hstored).trans (hnow.kept spares_utcNow)).trans hothers
    exact hanswer.updateIf_conflict (World.current_of_read (hstanding.kept hkept).stored)
  | marked =>
    obtain ⟨w₁, hput, hrest⟩ := Trace.cons_iff.mp hworlds
    obtain ⟨w₂, hnow, hrest⟩ := Trace.cons_iff.mp hrest
    obtain ⟨w₃, ⟨w₀, hothers, hanswer, -⟩, hnil⟩ := Trace.cons_iff.mp hrest
    rw [Trace.nil_iff] at hnil
    subst hnil
    have hkept := ((hput.kept hstored).trans (hnow.kept spares_utcNow)).trans hothers
    refine .inr ⟨rfl, by simp [Faultless, failed], ?_⟩
    refine (hanswer.read_other fun k v hw => ?_).trans hkept.marker
    cases hw
    exact markerKey_ne_rowKey D _ _

/-- Between the lookup of the row and the rotation nothing is written. -/
theorem lookup_spared {id f newId : Uuid} {found looked : Except FabricError
    (Option (Entry × Revision))} {k : KvKey} {signed refreshed created : ℕ}
    {rest : List Calls.Event}
    (hworlds : Trace (Unapplied D id f) w (⟨.get k, found⟩ :: ⟨.get (markerKey D f), looked⟩ ::
      ⟨.utcNow, signed⟩ :: ⟨.nowV7, newId⟩ :: ⟨.utcNow, refreshed⟩ :: ⟨.utcNow, created⟩ :: rest) w') :
    ∃ w₁ w₂ w₃ w₄ w₅, SessionKept D id f w w₁ ∧
      Unapplied D id f w₁ ⟨.get (markerKey D f), looked⟩ w₂ ∧ SessionKept D id f w w₃ ∧
      Unapplied D id f w₃ ⟨.nowV7, newId⟩ w₄ ∧ SessionKept D id f w w₅ ∧
      Trace (Unapplied D id f) w₅ rest w' := by
  obtain ⟨w₁, hfound, hrest⟩ := Trace.cons_iff.mp hworlds
  obtain ⟨w₂, hlooked, hrest⟩ := Trace.cons_iff.mp hrest
  obtain ⟨w₃, hsigned, hrest⟩ := Trace.cons_iff.mp hrest
  obtain ⟨w₄, hminted, hrest⟩ := Trace.cons_iff.mp hrest
  obtain ⟨v, hrefreshed, hrest⟩ := Trace.cons_iff.mp hrest
  obtain ⟨w₅, hcreated, hrest⟩ := Trace.cons_iff.mp hrest
  have hread := hfound.kept (spares_get k)
  have hbefore := (hread.trans (hlooked.kept (spares_get _))).trans (hsigned.kept spares_utcNow)
  have hafter := ((hminted.kept spares_nowV7).trans (hrefreshed.kept spares_utcNow)).trans
    (hcreated.kept spares_utcNow)
  exact ⟨w₁, w₂, w₃, w₄, w₅, hread, hlooked, hbefore, hminted, hbefore.trans hafter, hrest⟩

theorem Accepts.unique {jwt : String} {now : ℕ} {claims claims' : RefreshClaims} {id id' : Uuid}
    (h : Accepts D S jwt now claims id) (h' : Accepts D S jwt now claims' id') : id = id' := by
  have hclaims : claims = claims' := Except.ok.inj (h.1.symm.trans h'.1)
  exact Option.some.inj (h.2.symm.trans (hclaims ▸ h'.2))

theorem accepts_live {signed now : ℕ} (h : ¬ S.jwt.RefreshLapsed signed now) (email : String)
    (id : Uuid) : Accepts D S (S.jwt.refreshToken D email id signed) now
      (S.jwt.refreshClaims D email id signed) id :=
  ⟨JwtService.refreshVerdict_live h _ _, D.parseStr_toString _⟩

/-- How the renewal of a live token ends: some call other than the revocation lookup failed and
the session is as it was, or the tokens are renewed. -/
inductive RenewalEnds (D : Deps) (row : RefreshToken) (w w' : World) (tr : List Calls.Event) :
    Renewed → Prop
  | interrupted {message : String}
      (fault : ∃ e ∈ tr, failed e.1 e.2 = true ∧ e.1 ≠ .get (markerKey D row.familyId))
      (kept : SessionKept D row.id row.familyId w w') :
      RenewalEnds D row w w' tr (.error (.Internal message))
  | renewed {access refresh : String} (haccess : access ≠ "") (hrefresh : refresh ≠ "")
      (healthy : ∀ e ∈ tr, failed e.1 e.2 = true → e.1 = .get (markerKey D row.familyId))
      (marker : w'.read (markerKey D row.familyId) = w.read (markerKey D row.familyId)) :
      RenewalEnds D row w w' tr (.ok (access, refresh))

theorem renewal_live {jwt : String} {now : ℕ} {claims : RefreshClaims} {r : Renewed}
    (hcalls : RenewalCalls D S jwt (⟨.utcNow, now⟩ :: tr) r)
    (haccepted : Accepts D S jwt now claims row.id) (hstanding : Standing D w row revision)
    (hunused : row.usedAt = none) (hlive : ¬ w.Revoked D row.familyId)
    (hworlds : Trace (Unapplied D row.id row.familyId) w tr w') : RenewalEnds D row w w' tr r := by
  cases hcalls with
  | refused unaccepted => exact absurd haccepted (unaccepted _ _)
  | @unread _ _ id found e accepted unread =>
    cases accepted.unique haccepted
    obtain ⟨w₁, hfound, -⟩ := Trace.cons_iff.mp hworlds
    rcases hstanding.found hfound with rfl | hfailed
    · cases unread
    · refine .interrupted ⟨_, .head _, hfailed, by simp⟩ (unapplied_kept hworlds ?_)
      simpa using spares_get _
  | absent accepted =>
    cases accepted.unique haccepted
    obtain ⟨w₁, hfound, -⟩ := Trace.cons_iff.mp hworlds
    rcases hstanding.found hfound with hfound | hfailed
    · cases hfound
    · cases hfailed
  | @revoked _ _ id row' revision' looked _ accepted marked =>
    cases accepted.unique haccepted
    obtain ⟨w₁, hfound, hrest⟩ := Trace.cons_iff.mp hworlds
    obtain ⟨w₂, hlooked, -⟩ := Trace.cons_iff.mp hrest
    rcases hstanding.found hfound with hrow | hfailed
    · cases hrow
      have hrevoked := ((looked_revoked hlooked).mp marked).2
      exact absurd ((hfound.kept (spares_get _)).revoked.mp hrevoked) hlive
    · cases hfailed
  | @rotating _ signed refreshed created _ id newId row' revision' looked rest rotated accepted
      unmarked calls =>
    cases accepted.unique haccepted
    obtain ⟨w₁, hfound, -⟩ := Trace.cons_iff.mp hworlds
    rcases hstanding.found hfound with hrow | hfailed
    · cases hrow
      obtain ⟨-, -, w₃, w₄, w₅, -, -, hbefore, hminted, hkept, hrotation⟩ := lookup_spared hworlds
      have hnew := (hstanding.kept hbefore).fresh hminted
      rcases rotate_live calls (hstanding.kept hkept) hunused hnew hrotation with
        ⟨e, rfl, ⟨fault, hfault, hfailed, hother⟩, hafter⟩ | ⟨rfl, hfine, hmarker⟩
      · refine .interrupted ⟨fault, ?_, hfailed, hother⟩ (hkept.trans hafter)
        simp [hfault]
      · refine .renewed (S.jwt.accessToken_ne_empty D _ _) (S.jwt.refreshToken_ne_empty D _ _ _)
          ?_ (hmarker.trans hkept.marker)
        intro e he hfailed
        simp only [List.mem_cons] at he
        rcases he with rfl | rfl | rfl | rfl | rfl | rfl | he
        · cases hfailed
        · rfl
        · cases hfailed
        · cases hfailed
        · cases hfailed
        · cases hfailed
        · rw [hfine e he] at hfailed
          cases hfailed
    · cases hfailed

/-- A token whose row is used or whose family is revoked is not renewed by a store that answers. -/
theorem renewal_dead {jwt : String} {now : ℕ} {claims : RefreshClaims} {r : Renewed}
    (hcalls : RenewalCalls D S jwt (⟨.utcNow, now⟩ :: tr) r)
    (haccepted : Accepts D S jwt now claims row.id) (hstanding : Standing D w row revision)
    (hdead : row.usedAt.isSome ∨ w.Revoked D row.familyId) (hfine : Faultless tr)
    (hworlds : Trace (Unapplied D row.id row.familyId) w tr w') : ∃ e, r = .error e := by
  cases hcalls with
  | refused => exact ⟨_, rfl⟩
  | unread => exact ⟨_, rfl⟩
  | absent => exact ⟨_, rfl⟩
  | revoked => exact ⟨_, rfl⟩
  | @rotating _ signed refreshed created _ id newId row' revision' looked rest rotated accepted
      unmarked calls =>
    cases accepted.unique haccepted
    obtain ⟨w₁, hfound, -⟩ := Trace.cons_iff.mp hworlds
    rcases hstanding.found hfound with hrow | hfailed
    · cases hrow
      obtain ⟨w₁, w₂, -, -, -, hkept, hlooked, -⟩ := lookup_spared hworlds
      have hanswered : failed (.get (markerKey D row.familyId)) looked = false :=
        hfine _ (.tail _ (.head _))
      have hlive : ¬ w.Revoked D row.familyId := by
        intro hrevoked
        have hmarked := (looked_revoked hlooked).mpr ⟨hanswered, hkept.revoked.mpr hrevoked⟩
        rw [unmarked] at hmarked
        cases hmarked
      have hused := hdead.resolve_right hlive
      cases calls with
      | reused => exact ⟨_, rfl⟩
      | unstored unused => exact absurd hused unused
      | unmarked unused => exact absurd hused unused
      | overtaken unused => exact absurd hused unused
      | marked unused => exact absurd hused unused
    · cases hfailed

end Rotation

section Responses
variable {D : Deps} {S : AppState}

/-- The access and refresh cookies a response sets or clears. -/
def Response.tokenCookies (S : AppState) (r : Response) : List SetCookie :=
  r.setCookie.filter fun c => c.name = S.cookieConfig.accessCookieName ∨
    c.name = S.cookieConfig.refreshCookieName

/-- How the handler of the request answers a renewal. -/
def Request.answer (S : AppState) : Request → Renewed → Response
  | .check _ => checkAnswer S
  | _ => refreshAnswer S

theorem tokenCookies_session (r : Response) (sid : String) :
    (r.appendCookie (buildSessionCookie D sid S.cookieConfig)).tokenCookies S = r.tokenCookies S := by
  obtain ⟨-, haccess, hrefresh⟩ := S.cookieConfig.names_distinct D
  simp [Response.tokenCookies, List.filter_append, buildSessionCookie, haccess, hrefresh]

theorem rotated_tokenCookies {r r' : Response} (h : r.tokenCookies S = r'.tokenCookies S)
    (hrotated : r'.Rotated S) : r.Rotated S := by
  obtain ⟨access, refresh, haccess, hrefresh, ⟨a, ha, hname, hvalue⟩, b, hb, hname', hvalue'⟩ :=
    hrotated
  have hmem : ∀ c ∈ r'.setCookie, (c.name = S.cookieConfig.accessCookieName ∨
      c.name = S.cookieConfig.refreshCookieName) → c ∈ r.setCookie := by
    intro c hc hnamed
    have hfiltered : c ∈ r'.tokenCookies S := List.mem_filter.mpr ⟨hc, by simpa using hnamed⟩
    rw [← h] at hfiltered
    exact (List.mem_filter.mp hfiltered).1
  exact ⟨access, refresh, haccess, hrefresh, ⟨a, hmem a ha (.inl hname), hname, hvalue⟩, b,
    hmem b hb (.inr hname'), hname', hvalue'⟩

theorem Response.Rotated.tokenCookies_ne {r : Response} (h : r.Rotated S) :
    r.tokenCookies S ≠ [] := by
  obtain ⟨access, -, -, -, ⟨a, ha, hname, -⟩, -⟩ := h
  refine List.ne_nil_of_mem (a := a) (List.mem_filter.mpr ⟨ha, ?_⟩)
  simp [hname]

theorem answer_rotated (q : Request) {access refresh : String} (haccess : access ≠ "")
    (hrefresh : refresh ≠ "") : (q.answer S (.ok (access, refresh))).Rotated S := by
  cases q <;> exact ⟨access, refresh, haccess, hrefresh, ⟨_, .head _, rfl, rfl⟩,
    ⟨_, .tail _ (.head _), rfl, rfl⟩⟩

theorem answer_error (q : Request) (e : AppError) : ¬ (q.answer S (.error e)).Rotated S := by
  rintro ⟨access, -, haccess, -, ⟨c, hc, -, hvalue⟩, -⟩
  have hempty : c.value = "" := by
    cases q with
    | check => exact clearCookies_clears _ c hc
    | _ => exact refreshAnswer_clears e c hc
  exact haccess (hvalue.symm.trans hempty)

theorem answer_internal (q : Request) (message : String) :
    (q.answer S (.error (.Internal message))).tokenCookies S = [] ↔ ∀ headers, q ≠ .check headers := by
  cases q with
  | check headers =>
    have hcleared : buildClearAccessCookie S.cookieConfig ∈
        (clearCookiesResponse S).tokenCookies S :=
      List.mem_filter.mpr ⟨.head _, by simp [buildClearAccessCookie, buildCookie]⟩
    exact ⟨fun h => absurd h (List.ne_nil_of_mem hcleared), fun h => absurd rfl (h headers)⟩
  | _ => exact ⟨fun _ => by simp, fun _ => rfl⟩

end Responses

section Requests
variable {D : Deps} {S : AppState} {w w' : World} {row : RefreshToken} {revision : Revision}
  {tr : List Calls.Event} {q : Request} {r : Response} {id f : Uuid}

/-- The request presents a refresh token with this id, which verifies, to `/auth/refresh`, or
to `/auth/check` behind an access token that has expired. -/
inductive Presenting (D : Deps) (S : AppState) (id : Uuid) : Request → List Calls.Event → Prop
  | refresh {headers : HeaderMap} {body : Option RefreshRequest} {jwt : String} {now : ℕ}
      {claims : RefreshClaims} {tr : List Calls.Event}
      (presented : resolveRefreshToken S (body.getD ⟨none⟩) headers = some jwt)
      (accepted : Accepts D S jwt now claims id) :
      Presenting D S id (.refresh headers body) (⟨.utcNow, now⟩ :: tr)
  | check {headers : HeaderMap} {token jwt : String} {seen now : ℕ} {claims : RefreshClaims}
      {tr : List Calls.Event} (on : S.authCheckSilentRefresh = true)
      (access : extractAccessCookie headers S.cookieConfig = some token)
      (expired : S.jwt.accessVerdict D token seen = .error .Expired)
      (presented : extractRefreshCookie headers S.cookieConfig = some jwt)
      (accepted : Accepts D S jwt now claims id) :
      Presenting D S id (.check headers) (⟨.utcNow, seen⟩ :: ⟨.utcNow, now⟩ :: tr)

theorem Presenting.path (h : Presenting D S id q tr) :
    (∃ headers body, q = .refresh headers body) ∨ ∃ headers, q = .check headers := by
  cases h with
  | refresh => exact .inl ⟨_, _, rfl⟩
  | check => exact .inr ⟨_, rfl⟩

/-- The request is served from world `w` to world `w'` while others leave the session alone. -/
structure Renewing (D : Deps) (S : AppState) (id f : Uuid) (w : World) (q : Request)
    (tr : List Calls.Event) (r : Response) (w' : World) : Prop where
  presenting : Presenting D S id q tr
  ran : Prog.Ran (serve D S q) tr r
  worlds : Trace (AmongOthers D id f) w tr w'

/-- The renewal within a request: its calls, the worlds it runs in, and how it is answered. -/
inductive Carries (D : Deps) (S : AppState) (id f : Uuid) (w : World) (q : Request)
    (tr : List Calls.Event) (r : Response) (w' : World) : Prop
  | intro {jwt : String} {now : ℕ} {claims : RefreshClaims} {body : List Calls.Event}
      {renewed : Renewed} {w₁ w₂ : World} (accepted : Accepts D S jwt now claims id)
      (calls : RenewalCalls D S jwt (⟨.utcNow, now⟩ :: body) renewed)
      (before : SessionKept D id f w w₁) (worlds : Trace (Unapplied D id f) w₁ body w₂)
      (after : SessionKept D id f w₂ w') (within : ∀ e ∈ body, e ∈ tr)
      (faults : ∀ e ∈ tr, failed e.1 e.2 = true → e ∈ body)
      (cookies : r.tokenCookies S = (q.answer S renewed).tokenCookies S) :
      Carries D S id f w q tr r w'

theorem RenewalCalls.begins {jwt : String} {renewed : Renewed} (h : RenewalCalls D S jwt tr renewed) :
    ∃ (now : ℕ) (body : List Calls.Event), tr = ⟨.utcNow, now⟩ :: body := by
  cases h <;> exact ⟨_, _, rfl⟩

/-- A handler that answers a renewal and adds a session cookie carries the renewal. -/
theorem carries_renewal {jwt : String} {now : ℕ} {claims : RefreshClaims} {session : Option String}
    (haccepted : Accepts D S jwt now claims id)
    (hran : Prog.Ran (renewal D S (fun r => r) jwt >>= fun renewed =>
      appendSessionCookieIfNeeded D S (q.answer S renewed) session) (⟨.utcNow, now⟩ :: tr) r)
    (hworlds : Trace (Unapplied D id f) w (⟨.utcNow, now⟩ :: tr) w') :
    Carries D S id f w q (⟨.utcNow, now⟩ :: tr) r w' := by
  obtain ⟨renewed, t₁, t₂, htr, hrenewal, hsession⟩ := Prog.ran_bind.mp hran
  have hcalls := renewal_ran hrenewal
  obtain ⟨now', body, rfl⟩ := hcalls.begins
  rw [List.cons_append] at htr
  obtain ⟨hnow, rfl⟩ := List.cons.inj htr
  cases hnow
  obtain ⟨w₁, hclock, hrest⟩ := Trace.cons_iff.mp hworlds
  obtain ⟨w₂, hbody, hend⟩ := Trace.append_iff.mp hrest
  have hquiet : (∀ e ∈ t₂, e.1 = .nowV7) ∧
      r.tokenCookies S = (q.answer S renewed).tokenCookies S := by
    rcases session_ran hsession with ⟨rfl, rfl⟩ | ⟨sid, rfl, rfl⟩
    · exact ⟨by simp, rfl⟩
    · exact ⟨by simp, tokenCookies_session _ _⟩
  refine .intro haccepted hcalls (hclock.kept spares_utcNow) hbody ?_ ?_ ?_ hquiet.2
  · refine unapplied_kept hend fun e he => ?_
    rw [hquiet.1 e he]
    exact spares_nowV7
  · intro e he
    simp [he]
  · intro e he hfailed
    rcases List.mem_cons.mp he with rfl | he
    · cases hfailed
    · rcases List.mem_append.mp he with he | he
      · exact he
      · obtain ⟨o, reply⟩ := e
        cases hquiet.1 _ he
        cases hfailed

theorem Presenting.carries (h : Presenting D S id q tr) (hran : Prog.Ran (serve D S q) tr r)
    (hworlds : Trace (Unapplied D id f) w tr w') : Carries D S id f w q tr r w' := by
  cases h with
  | refresh presented accepted =>
    rw [serve, refreshHandler_eq presented] at hran
    exact carries_renewal accepted hran hworlds
  | @check headers token jwt seen now claims tr on access expired presented accepted =>
    rw [serve, authCheckHandler_eq on access presented] at hran
    obtain ⟨seen', rest, heq, hrest⟩ := Prog.ran_call.mp hran
    cases heq
    simp only [expired] at hrest
    obtain ⟨w₁, hseen, hafter⟩ := Trace.cons_iff.mp hworlds
    obtain ⟨accepted, calls, before, worlds, after, within, faults, cookies⟩ :=
      carries_renewal (q := .check headers) accepted hrest hafter
    refine .intro accepted calls ((hseen.kept spares_utcNow).trans before) worlds after ?_ ?_ cookies
    · exact fun e he => .tail _ (within e he)
    · intro e he hfailed
      rcases List.mem_cons.mp he with rfl | he
      · cases hfailed
      · exact faults e he hfailed

/-- What a live refresh token gets: some call other than the revocation lookup failed and the
session is as it was, or a rotation. -/
theorem presented_live (h : Presenting D S row.id q tr) (hran : Prog.Ran (serve D S q) tr r)
    (hworlds : Trace (Unapplied D row.id row.familyId) w tr w') (hstanding : Standing D w row revision)
    (hunused : row.usedAt = none) (hlive : ¬ w.Revoked D row.familyId) :
    (∃ message, r.tokenCookies S = (q.answer S (.error (.Internal message))).tokenCookies S ∧
      (∃ e ∈ tr, failed e.1 e.2 = true ∧ e.1 ≠ .get (markerKey D row.familyId)) ∧
      SessionKept D row.id row.familyId w w') ∨
    r.Rotated S ∧ (∀ e ∈ tr, failed e.1 e.2 = true → e.1 = .get (markerKey D row.familyId)) ∧
      ¬ w'.Revoked D row.familyId := by
  obtain ⟨accepted, calls, before, worlds, after, within, faults, cookies⟩ := h.carries hran hworlds
  cases renewal_live calls accepted (hstanding.kept before) hunused (before.revoked.not.mpr hlive)
    worlds with
  | interrupted fault kept =>
    obtain ⟨e, he, hfailed, hother⟩ := fault
    exact .inl ⟨_, cookies, ⟨e, within e he, hfailed, hother⟩, (before.trans kept).trans after⟩
  | renewed haccess hrefresh healthy marker =>
    refine .inr ⟨rotated_tokenCookies cookies (answer_rotated q haccess hrefresh), ?_, ?_⟩
    · exact fun e he hfailed => healthy e (faults e he hfailed) hfailed
    · have hsame := (after.marker.trans marker).trans before.marker
      simpa only [World.Revoked, hsame] using hlive

theorem Renewing.dead (h : Renewing D S row.id row.familyId w q tr r w') (hfine : Faultless tr)
    (hstanding : Standing D w row revision)
    (hdead : row.usedAt.isSome ∨ w.Revoked D row.familyId) : ¬ r.Rotated S := by
  obtain ⟨accepted, calls, before, worlds, -, within, -, cookies⟩ :=
    h.presenting.carries h.ran (hfine.unapplied h.worlds)
  obtain ⟨e, rfl⟩ := renewal_dead calls accepted (hstanding.kept before)
    (hdead.imp_right before.revoked.mpr) (fun e he => hfine e (within e he)) worlds
  exact fun hrotated => answer_error q e (rotated_tokenCookies cookies.symm hrotated)

theorem Renewing.live (h : Renewing D S row.id row.familyId w q tr r w') (hfine : Faultless tr)
    (hstanding : Standing D w row revision) (hunused : row.usedAt = none)
    (hlive : ¬ w.Revoked D row.familyId) : r.Rotated S ∧ ¬ w'.Revoked D row.familyId := by
  rcases presented_live h.presenting h.ran (hfine.unapplied h.worlds) hstanding hunused hlive with
    ⟨-, -, ⟨e, he, hfailed, -⟩, -⟩ | ⟨hrotated, -, hafter⟩
  · rw [hfine e he] at hfailed
    cases hfailed
  · exact ⟨hrotated, hafter⟩

end Requests

end SvcAuth
