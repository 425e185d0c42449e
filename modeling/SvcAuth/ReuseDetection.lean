import SvcAuth.RevocationLookup
import SvcAuth.HandedOut

/-! Reuse detection. It is complete: of two rotations that found one row the later cannot
commit, and whatever stops it leaves the family revoked. It is sound: a family is revoked
by a logout, by two rotations of one token, or because a row expired under a rotation. -/
namespace SvcAuth
open Interleave RevisionBucket RefreshTokenStore

variable {D : Deps} {S : AppState} {G : Assumption} {clock : ℕ} {ls ms : List Event}
  {c d : PhaseState} {l : Event} {t u : ℕ} {f : Uuid}

section Calm
variable (hG : ∀ w r l, G w r l → Both FaultFree NoExpiry w r l)
include hG

theorem calm_answer (h : PhaseSegment D S G c ls d) {o : Op} {r : o.Reply}
    (hl : .call t o r ∈ ls) : failed o r = false ∧ ∃ w w', Answers w o r w' := by
  obtain ⟨-, -, e, e', -, -, hstep, -⟩ := Trace.at_label h hl
  obtain ⟨-, -, -, -, answer, -⟩ := step_call hstep.1
  exact ⟨(hG _ _ _ hstep.2).1, _, _, answer⟩

theorem calm_put (h : PhaseSegment D S G c ls d) {k : KvKey} {v : Entry}
    {r : Except FabricError Unit} (hl : .call t (.put k v) r ∈ ls) : r = .ok () := by
  obtain ⟨hok, w, w', answer⟩ := calm_answer hG h hl
  refine answer.put_answer.resolve_right fun hfailed => ?_
  rw [hok] at hfailed
  cases hfailed

theorem calm_updateIf (h : PhaseSegment D S G c ls d) {k : KvKey} {v : Entry} {rev : Revision}
    {r : Except FabricError Unit} (hl : .call t (.updateIf k v rev) r ∈ ls) :
    r = .ok () ∨ r = .error .RevisionConflict := by
  obtain ⟨hok, w, w', answer⟩ := calm_answer hG h hl
  refine answer.updateIf_answer.imp_right fun hr => hr.resolve_right fun hfailed => ?_
  rw [hok] at hfailed
  cases hfailed

/-- If nothing fails or expires, a rotation that found a row and has ended was granted, or
its family is revoked. -/
theorem PhaseRun.settles (h : PhaseRun D S G clock ls c) {x : Held} (hx : Found D ls t x)
    (hkind : Arrived ls t .rotation) {ph : Phase} {r : Response} (ht : c.threads t = some ph)
    (hview : view D S ph = .inl r) : c.world.Revoked D x.row.familyId ∨
      ∃ y, ph.outcome = some (.granted y) ∧ y.held = x := by
  have hcalm : ∀ w r l, G w r l → NoExpiry w r l := fun w r l hg => (hG w r l hg).2
  obtain ⟨ph', ht', hheld⟩ := hx.held h
  rw [ht] at ht'
  cases ht'
  rcases finished_held hview hheld with ⟨o, ho, hox⟩ | hlogout
  · obtain ⟨op, answer, hdecides, hl⟩ := h.concluded ht ho
    cases o with
    | granted y => exact .inr ⟨y, ho, Option.some.inj hox⟩
    | revoked z =>
      cases hox
      obtain ⟨m, rev, heq⟩ := hdecides
      cases heq
      exact .inl (h.marker_seen hcalm hl)
    | reuse z =>
      cases hox
      obtain ⟨now, answer', heq⟩ := hdecides
      cases heq
      rw [calm_put hG h hl] at hl
      exact .inl (h.marker_stored hcalm hl)
    | unavailable z =>
      -- the store failed, which the assumption rules out
      exfalso
      rcases hdecides with ⟨k, v, err, heq⟩ | ⟨k, v, rev, err, hother, heq⟩
      · cases heq
        cases calm_put hG h hl
      · cases heq
        rcases calm_updateIf hG h hl with hok | hconflict
        · cases hok
        · exact hother (Except.error.inj hconflict)
    | _ => cases hox
  · cases Arrived.unique h hkind (h.arrived ht hlogout)

end Calm

section Complete

theorem Found.family (h : PhaseRun D S G clock ls c) {x y : Held} (hx : Found D ls t x)
    (hy : Found D ls u y) (hid : x.row.id = y.row.id) : x.row.familyId = y.row.familyId := by
  obtain ⟨v, hs⟩ := hx.issued h
  obtain ⟨w, hs'⟩ := hy.issued h
  have hrow := (h.stored_once hs hs' hid).2
  exact (congrArg RefreshToken.familyId hrow : x.row.issued.familyId = y.row.issued.familyId)

/-- Reuse detection is complete. If two rotations found one row and have ended, their
family is revoked, one of them at most handed out tokens, and no request that begins
later renews the family. -/
theorem reuse_detected (D : Deps) (S : AppState) (clock : ℕ) (ls : List Event) (c : ServiceState)
    (h : Run D S (Both FaultFree NoExpiry) clock ls c) (t u : ℕ) (htu : t ≠ u)
    (ht : Arrived ls t .rotation) (hu : Arrived ls u .rotation) (x y : Held)
    (hx : Found D ls t x) (hy : Found D ls u y) (hid : x.row.id = y.row.id) (r s : Response)
    (hr : c.response t = some r) (hs : c.response u = some s) :
    c.world.Revoked D x.row.familyId ∧ ¬ (Grants S r ∧ Grants S s) ∧
      ∀ ms d v q, Segment D S (Both FaultFree NoExpiry) c ms d → .arrive v q ∈ ms →
        ¬ Renews D S (ls ++ ms) d v x.row.familyId := by
  have hG : ∀ w r l, Both FaultFree NoExpiry w r l → Both FaultFree NoExpiry w r l :=
    fun _ _ _ hg => hg
  obtain ⟨c', hc, hm⟩ := Segment.phases (mirrors_initial _) h
  rw [hm.response] at hr hs
  obtain ⟨ph, hph, hview⟩ := finished_iff.mp hr
  obtain ⟨ph', hph', hview'⟩ := finished_iff.mp hs
  have hone : ∀ y₁ y₂, ph.outcome = some (.granted y₁) → ph'.outcome = some (.granted y₂) →
      y₁.held = x → y₂.held ≠ y := by
    rintro y₁ y₂ ho ho' rfl rfl
    obtain ⟨now, hcommit⟩ := PhaseRun.granted_committed hc hph ho
    obtain ⟨now', hcommit'⟩ := PhaseRun.granted_committed hc hph' ho'
    have hfirst : Committed D ls t (y₁.replaced now) := ⟨_, hcommit⟩
    have hsecond : Committed D ls u (y₂.replaced now') := ⟨_, hcommit'⟩
    exact htu (hfirst.once hc hsecond hid)
  have hrevoked : c'.world.Revoked D x.row.familyId := by
    rcases PhaseRun.settles hG hc hx ht hph hview with hrevoked | ⟨y₁, ho, hy₁⟩
    · exact hrevoked
    · rcases PhaseRun.settles hG hc hy hu hph' hview' with hrevoked | ⟨y₂, ho', hy₂⟩
      · rw [hx.family hc hy hid]
        exact hrevoked
      · exact absurd hy₂ (hone y₁ y₂ ho ho' hy₁)
  refine ⟨hm.1 ▸ hrevoked, ?_, ?_⟩
  · rintro ⟨hgr, hgs⟩
    obtain ⟨y₁, ho, hy₁⟩ := PhaseRun.grants_granted hc hph hview hgr hx
    obtain ⟨y₂, ho', hy₂⟩ := PhaseRun.grants_granted hc hph' hview' hgs hy
    exact hone y₁ y₂ ho ho' hy₁ hy₂
  · intro ms d v q hseg harrive hrenews
    obtain ⟨d', hd, hm'⟩ := Segment.phases hm hseg
    obtain ⟨ph, z, hph, ho, hf⟩ := hrenews.granted (Trace.trans hc hd) hm'
    have hkept : ¬ Expired ms (markerKey D x.row.familyId) := not_expired (fun _ _ _ hg => hg.2) hd
    have hidle := ((Trace.arrived hd).1 v q harrive).1
    refine PhaseRun.never_cleared hc hd hrevoked hkept ?_ hidle hph (hf ▸ granted_cleared ho)
    rintro w answer hl rfl
    cases (calm_answer hG hd hl).1

/-- Requests 1 and 2 both found token 1: the family is revoked for good. -/
theorem reuse_detected_sample : ∃ ls c r s, Run Sample.deps Sample.state
    (Both FaultFree NoExpiry) Sample.moment ls c ∧ c.response 1 = some r ∧ c.response 2 = some s ∧
    c.world.Revoked Sample.deps (serial 2) ∧ ¬ (Grants Sample.state r ∧ Grants Sample.state s) ∧
    ∀ ms d v q, Segment Sample.deps Sample.state (Both FaultFree NoExpiry) c ms d →
      .arrive v q ∈ ms → ¬ Renews Sample.deps Sample.state (ls ++ ms) d v (serial 2) := by
  obtain ⟨c, hc, hm⟩ := PhaseSegment.service (mirrors_initial _) (reuse_run Sample.deps Sample.state
    Sample.moment (permits_faultFree.both permits_noExpiry) Sample.live)
  have hfirst := (hm.response 1).trans
    (done_responds ((Config.move_other _ _ _ (by decide)).trans (Config.move_same _ _ _ _)))
  have hsecond := (hm.response 2).trans (done_responds (Config.move_same _ _ _ _))
  exact ⟨_, c, _, _, hc, hfirst, hsecond, reuse_detected _ _ _ _ c hc 1 2 (by decide)
    ((rotation_arrived Sample.deps Sample.state Sample.moment).mono fun _ hl =>
      List.mem_append_left _ (List.mem_append_right _ hl))
    ((reuse_arrived Sample.deps Sample.state Sample.moment).mono (List.subset_append_right _ _))
    (firstHeld Sample.moment) (usedHeld Sample.moment)
    (List.mem_append_left _ (List.mem_append_right _ (rotation_found _ _ _)))
    (List.mem_append_right _ (reuse_found _ _ _)) rfl _ _ hfirst hsecond⟩

end Complete

section Sound

/-- Request `t` of this kind presented a refresh token that verified, for token `id`, and
found its row in family `f`. -/
def Presents (D : Deps) (S : AppState) (ls : List Event) (t : ℕ) (κ : Kind) (f id : Uuid) : Prop :=
  Arrived ls t κ ∧ (∃ email, Verified D S ls t email id) ∧
    ∃ x, Found D ls t x ∧ x.row.id = id ∧ x.row.familyId = f

/-- The row expired between the moment request `t` found it and its attempt to commit. -/
def Lapsed (D : Deps) (ls : List Event) (t : ℕ) (x : Held) : Prop :=
  ∃ before mid after v, ls = before ++
    .call t (.get (rowKey D x.row.id)) (.ok (some (.token x.row, x.revision))) ::
      (mid ++ .call t (.updateIf (rowKey D x.row.id) v x.revision) (.error .RevisionConflict) ::
        after) ∧ Expired mid (rowKey D x.row.id)

theorem Found.presents (h : PhaseRun D S G clock ls c) {x : Held} {κ : Kind} (hx : Found D ls t x)
    (hκ : Arrived ls t κ) : Presents D S ls t κ x.row.familyId x.row.id :=
  ⟨hκ, h.lookup_verified hx, x, hx, rfl, rfl⟩

theorem Marked.presents (h : PhaseRun D S G clock ls c) {row : RefreshToken} {x : Held}
    (hm : Marked D ls u row) (hx : Found D ls t x) (hid : row.id = x.row.id) :
    Presents D S ls u .rotation x.row.familyId x.row.id := by
  obtain ⟨y, now, rfl, hy, -⟩ := hm.rotation h
  have hp : Presents D S ls u .rotation y.held.row.familyId y.held.row.id :=
    hy.presents h (hm.arrived h)
  rwa [hy.family h hx hid, show y.held.row.id = x.row.id from hid] at hp

/-- A row that is about to cost its family was used when it was read, or its commit met a
conflict. -/
theorem PhaseRun.accused (h : PhaseRun D S G clock ls c) {ph : Phase} {x : Held}
    (ht : c.threads t = some ph) (hx : ph.accused = some x) : x.row.usedAt ≠ none ∨
      ∃ v, .call t (.updateIf (rowKey D x.row.id) v x.revision) (.error .RevisionConflict) ∈ ls := by
  refine h.known (P := fun ls t ph => ∀ x, ph.accused = some x → x.row.usedAt ≠ none ∨
    ∃ v, .call t (.updateIf (rowKey D x.row.id) v x.revision) (.error .RevisionConflict) ∈ ls)
    ?_ ?_ ?_ t ph ht x hx
  · exact fun ls l t ph ih x hx => (ih x hx).imp_right fun ⟨v, hl⟩ => ⟨v, log_grows ls l hl⟩
  · intro ls t q ph hs x hx
    rw [hs.accused] at hx
    cases hx
  · intro ls c t ph o r ph' w prior ht ih hm hw x hx
    rcases hm.accused hx with hold | hused | ⟨v, heq⟩
    · exact (ih x hold).imp_right fun ⟨v, hl⟩ => ⟨v, log_grows _ _ hl⟩
    · exact .inl hused
    · cases heq
      exact .inr ⟨v, List.mem_concat_self⟩

theorem Found.used_by (h : PhaseRun D S G clock ls c) {x : Held} (hx : Found D ls t x)
    (hused : x.row.usedAt ≠ none) : ∃ u, u ≠ t ∧ Marked D ls u x.row := by
  obtain ⟨u, hm⟩ := h.used_marked.reads t _ _ _ hx x.row rfl hused
  refine ⟨u, ?_, hm⟩
  rintro rfl
  obtain ⟨y, now, hy, hfound, -⟩ := hm.rotation h
  obtain ⟨ph, ht, hheld⟩ := hx.held h
  obtain ⟨ph', ht', hheld'⟩ := hfound.held h
  rw [ht] at ht'
  cases ht'
  rw [hheld] at hheld'
  cases hheld'
  exact hused y.unused

/-- A commit that met a conflict has its reason between the read and the write: another
request wrote to the row, or the row expired. -/
theorem conflict_reason (h : PhaseRun D S G clock ls c) {x : Held} {v : Entry} (hl : .call t
      (.updateIf (rowKey D x.row.id) v x.revision) (.error .RevisionConflict) ∈ ls)
    (hx : Found D ls t x) :
    (∃ u row, u ≠ t ∧ Marked D ls u row ∧ row.id = x.row.id) ∨ Lapsed D ls t x := by
  obtain ⟨b, after, e, e', rfl, hb, hstep, -⟩ := Trace.at_label h hl
  obtain ⟨ph, ph', ht, hm, answer, -⟩ := step_call hstep.1
  obtain ⟨y, z, now, rfl, -⟩ := hm.updateIf
  have hz : Found D b t z.held := PhaseRun.held_found hb ht rfl
  obtain ⟨phx, htx, hheldx⟩ := hx.held h
  obtain ⟨phz, htz, hheldz⟩ := (hz.mono (List.subset_append_left b _)).held h
  rw [htx] at htz
  cases htz
  rw [hheldx] at hheldz
  cases hheldz
  obtain ⟨b₁, mid, e₁, e₁', rfl, hb₁, hread, hmid⟩ := Trace.at_label hb hz
  have hrun := Trace.snoc hb₁ hread
  obtain ⟨cell, hcell, -, hrev⟩ := step_read hread.1
  have hcell' : e₁'.world.bucket.cells (rowKey D z.held.row.id) = some cell := by
    obtain ⟨-, -, -, -, hanswer, -⟩ := step_call hread.1
    rw [hanswer.of_get.1, hcell]
  rcases PhaseSegment.cell_kept hmid hcell' with hkept | ⟨u, o, r, v', hwrite, hw⟩ | hexpired
  · exact absurd ⟨cell, hkept, hrev⟩ answer.updateIf_conflict
  · left
    obtain ⟨m₁, m₂, a, a', rfl, hm₁, hwstep, -⟩ := Trace.at_label hmid hwrite
    obtain ⟨phu, phu', htu, hmu, -⟩ := step_call hwstep.1
    have hissued : Issued D _ z.held.row := Found.issued hrun (x := z.held) List.mem_concat_self
    have hpub := (hissued.mono (List.subset_append_left _ m₁)).published.1
    obtain ⟨yu, xu, nowu, rfl, hid, rfl, rfl⟩ :=
      step_rewrites (Trace.trans hrun hm₁) htu hmu hw hpub
    have hmarked : ∀ {ks : List Event}, .call u (.updateIf (rowKey D z.held.row.id)
        (.token (xu.replaced nowu)) xu.held.revision) r ∈ ks → Marked D ks u (xu.replaced nowu) := by
      intro ks hk
      rw [← hid] at hk
      exact ⟨_, _, hk⟩
    refine ⟨u, xu.replaced nowu, ?_, hmarked (by simp), hid⟩
    -- until its own attempt the request is not past committing
    rintro rfl
    obtain ⟨ph₁, ht₁, hclosing⟩ := (hmarked (List.mem_append_right _ (.tail _ hwrite))).closing hb
    rw [ht] at ht₁
    cases ht₁
    cases hclosing
  · exact .inr ⟨b₁, mid, after, v, by simp, hexpired⟩

/-- Why a marker is written: a logout presented a token of the family, or two rotations
presented the same token of it, or a row of it expired between read and commit. -/
theorem marker_explained (h : PhaseRun D S G clock ls c) {v : Entry} {r : Except FabricError Unit}
    (hl : .call t (.put (markerKey D f) v) r ∈ ls) :
    (∃ u id, Presents D S ls u .logout f id) ∨
    (∃ u u' id, u ≠ u' ∧ Presents D S ls u .rotation f id ∧ Presents D S ls u' .rotation f id) ∨
    ∃ u x, x.row.familyId = f ∧ Lapsed D ls u x := by
  obtain ⟨b, after, e, e', rfl, hb, hstep, -⟩ := Trace.at_label h hl
  have hsub : b ⊆ b ++ .call t (.put (markerKey D f) v) r :: after := List.subset_append_left _ _
  obtain ⟨ph, ph', ht, hm, -⟩ := step_call hstep.1
  cases v with
  | token row =>
    obtain ⟨hk, -⟩ := hm.put_pending
    exact absurd hk (markerKey_ne_rowKey D _ _)
  | revoked m =>
    obtain ⟨x, hk, hphase⟩ := hm.put_revoked
    rw [markerKey_inj] at hk
    subst hk
    rcases hphase with ⟨y, rfl⟩ | rfl
    · have hx := (PhaseRun.held_found hb ht rfl).mono hsub
      have hpresents := hx.presents h ((PhaseRun.arrived hb ht rfl).mono hsub)
      rcases PhaseRun.accused hb ht rfl with hused | ⟨v, hconflict⟩
      · obtain ⟨u, hne, hmarked⟩ := hx.used_by h hused
        exact .inr (.inl ⟨u, t, x.row.id, hne, hmarked.presents h hx rfl, hpresents⟩)
      · rcases conflict_reason h (hsub hconflict) hx with ⟨u, row, hne, hmarked, hid⟩ | hlapsed
        · exact .inr (.inl ⟨u, t, x.row.id, hne, hmarked.presents h hx hid, hpresents⟩)
        · exact .inr (.inr ⟨t, x, rfl, hlapsed⟩)
    · have hx := (PhaseRun.held_found hb ht rfl).mono hsub
      exact .inl ⟨t, x.row.id, hx.presents h ((PhaseRun.arrived hb ht rfl).mono hsub)⟩

/-- A rotation that looks up a token handed out before it arrived finds its row. -/
theorem HandedOut.found (hG : ∀ w r l, G w r l → Both FaultFree NoExpiry w r l)
    {before after : List Event} {q : Request}
    (h : PhaseRun D S G clock (before ++ .arrive t q :: after) c) {id : Uuid}
    (hh : HandedOut D before f id) {r : Except FabricError (Option (Entry × Revision))}
    (hl : .call t (.get (rowKey D id)) r ∈ before ++ .arrive t q :: after) :
    ∃ x, Found D (before ++ .arrive t q :: after) t x ∧ x.row.familyId = f := by
  obtain ⟨e₀, h₀, hrest⟩ := Trace.append_iff.mp h
  obtain ⟨e₁, harrive, hafter⟩ := Trace.cons_iff.mp hrest
  have hidle := ((Trace.arrived (Trace.one harrive)).1 t q (by simp)).1
  have hlater : .call t (.get (rowKey D id)) r ∈ after := by
    rcases List.mem_append.mp hl with hold | hnew
    · obtain ⟨ph, ht⟩ := Trace.called h₀ hold
      rw [hidle] at ht
      cases ht
    · rcases List.mem_cons.mp hnew with heq | hnew
      · cases heq
      · exact hnew
  obtain ⟨m₁, m₂, e, e', rfl, hm₁, hstep, -⟩ := Trace.at_label hafter hlater
  have hprior := Trace.trans (Trace.snoc h₀ harrive) hm₁
  obtain ⟨v, row, hplaced, rfl, rfl⟩ := hh.placed h₀
  have hsub : before ⊆ before ++ [.arrive t q] ++ m₁ := by simp
  obtain ⟨row', rev, hrow⟩ := ((hplaced.mono hsub).kept hprior).resolve_right
    (not_expired (fun w r l hg => (hG w r l hg).2) hprior)
  obtain ⟨-, -, -, -, answer, -⟩ := step_call hstep.1
  rcases answer.of_get.2 with rfl | rfl
  · rw [hrow] at h hl ⊢
    obtain ⟨hid, hfound⟩ := Found.of_read h hl
    refine ⟨_, hfound, ?_⟩
    obtain ⟨w, hissued⟩ := hfound.issued h
    have hsame := (h.stored_once hissued (hplaced.stored.mono
      (List.subset_append_left before _)) hid).2
    exact (congrArg RefreshToken.familyId hsame : row'.issued.familyId = row.familyId)
  · cases (hG _ _ _ hstep.2).1

/-- Reuse detection is sound. Whatever fails, stops or expires, a family is revoked only
over a logout with a token of it, two rotations of one token of it, or a row of it that
expired while a rotation had read it. If nothing fails or expires, a rotation that
presents a token handed out before, and verifying whenever the clock is read, ends with
a new access and a new refresh token unless its family is revoked by then. -/
theorem reuse_sound (D : Deps) (S : AppState) (clock : ℕ) (ls : List Event) (c : ServiceState) :
    (Run D S Unrestricted clock ls c → ∀ t f v r, .call t (.put (markerKey D f) v) r ∈ ls →
      (∃ u id, Presents D S ls u .logout f id) ∨
      (∃ u u' id, u ≠ u' ∧ Presents D S ls u .rotation f id ∧
        Presents D S ls u' .rotation f id) ∨
      ∃ u x, x.row.familyId = f ∧ Lapsed D ls u x) ∧
    (Run D S (Both FaultFree NoExpiry) clock ls c → ∀ before t q after f id jwt r,
      ls = before ++ .arrive t q :: after → HandedOut D before f id →
      Rotates D S ls t q jwt id → c.response t = some r → ¬ c.world.Revoked D f →
      r.Rotated S) := by
  constructor
  · intro h t f v r hl
    obtain ⟨c', hc, -⟩ := Segment.phases (mirrors_initial _) h
    exact marker_explained hc hl
  · rintro h before t q after f id jwt r rfl hhanded hrot hr hclear
    obtain ⟨c', hc, hm⟩ := Segment.phases (mirrors_initial _) h
    rw [hm.response] at hr
    rw [hm.1] at hclear
    obtain ⟨ph, ht, hview⟩ := finished_iff.mp hr
    have hq : .arrive t q ∈ before ++ .arrive t q :: after := by simp
    obtain ⟨r', hl⟩ := hrot.looks_up hc hq ht hview
    obtain ⟨x, hx, rfl⟩ := hhanded.found (fun _ _ _ hg => hg) hc hl
    rcases PhaseRun.settles (fun _ _ _ hg => hg) hc hx ⟨q, hq, hrot.kind⟩ ht hview with
      hrevoked | ⟨y, ho, -⟩
    · exact absurd hrevoked hclear
    · exact granted_rotated hview ho

/-- The rotation of token 1 ends with new tokens, and the marker of a later reuse is
explained. -/
theorem reuse_sound_sample :
    (∃ ls c r, Run Sample.deps Sample.state (Both FaultFree NoExpiry) Sample.moment ls c ∧
      c.response 1 = some r ∧ r.Rotated Sample.state) ∧
    ∃ ls c t v r, Run Sample.deps Sample.state Unrestricted Sample.moment ls c ∧
      .call t (.put (markerKey Sample.deps (serial 2)) v) r ∈ ls ∧
      ((∃ u id, Presents Sample.deps Sample.state ls u .logout (serial 2) id) ∨
        (∃ u u' id, u ≠ u' ∧ Presents Sample.deps Sample.state ls u .rotation (serial 2) id ∧
          Presents Sample.deps Sample.state ls u' .rotation (serial 2) id) ∨
        ∃ u x, x.row.familyId = serial 2 ∧ Lapsed Sample.deps ls u x) := by
  constructor
  · obtain ⟨c, hc, hm⟩ := PhaseSegment.service (mirrors_initial _) (rotation_run Sample.deps
      Sample.state Sample.moment (permits_faultFree.both permits_noExpiry) Sample.live)
    have hresponse := (hm.response 1).trans (done_responds (Config.move_same _ _ _ _))
    refine ⟨_, c, _, hc, hresponse, (reuse_sound _ _ _ _ c).2 hc _ 1 _ _ (serial 2) (serial 1) _ _
      (congrArg _ (rotation_arrives _ _ _)) (rotation_handed_out _ _)
      (rotation_rotates _ _ _ Sample.live) hresponse ?_⟩
    rw [hm.1]
    rintro ⟨m, rev, hread⟩
    rw [rotated_marker] at hread
    cases hread
  · obtain ⟨c, hc, -⟩ := PhaseSegment.service (mirrors_initial _)
      (reuse_run Sample.deps Sample.state Sample.moment permits_unrestricted Sample.live)
    have hput : .call 2 (.put (markerKey Sample.deps (serial 2)) (.revoked ⟨Sample.moment⟩)) (.ok ()) ∈
        openingLog Sample.deps Sample.moment ++ rotationLog Sample.deps Sample.state Sample.moment ++
          reuseLog Sample.deps Sample.state Sample.moment :=
      List.mem_append_right _ (List.mem_append_right _ (List.mem_of_getElem? (i := 1) rfl))
    exact ⟨_, c, _, _, _, hc, hput, (reuse_sound _ _ _ _ c).1 hc _ _ _ _ hput⟩

/-- A family may be revoked with no logout and one rotation in all, if its row expires
under that rotation. -/
theorem expiry_revokes : ¬ ∀ clock ls c, Run Sample.deps Sample.state Unrestricted clock ls c →
    ∀ t f v r, .call t (.put (markerKey Sample.deps f) v) r ∈ ls →
      (∃ u id, Presents Sample.deps Sample.state ls u .logout f id) ∨
      ∃ u u' id, u ≠ u' ∧ Presents Sample.deps Sample.state ls u .rotation f id ∧
        Presents Sample.deps Sample.state ls u' .rotation f id := by
  intro hclaim
  -- a week passes between the read and the commit, and the bucket drops what is a week old
  obtain ⟨d, hd⟩ := lapse_run Sample.deps Sample.state Sample.moment permits_unrestricted Sample.live
    (e := ⟨604800, fun _ => true⟩) rfl (fun _ => trivial)
  obtain ⟨c, hc, -⟩ := PhaseSegment.service (mirrors_initial _) hd
  have hput : .call 1 (.put (markerKey Sample.deps (serial 2))
      (.revoked ⟨Sample.moment + 604800⟩)) (.ok ()) ∈ openingLog Sample.deps Sample.moment ++
        lapseLog Sample.deps Sample.state Sample.moment ⟨604800, fun _ => true⟩ :=
    List.mem_append_right _ (List.mem_append_right _ (List.mem_of_getElem? (i := 1) rfl))
  rcases hclaim Sample.moment _ c hc 1 _ _ _ hput with ⟨u, id, harrived, -⟩ |
    ⟨u, u', id, hne, ⟨harrived, -⟩, ⟨harrived', -⟩⟩
  · rcases lapse_arrived _ _ _ harrived with ⟨-, heq⟩ | ⟨-, heq⟩ <;> cases heq
  · rcases lapse_arrived _ _ _ harrived with ⟨-, heq⟩ | ⟨rfl, -⟩
    · cases heq
    · rcases lapse_arrived _ _ _ harrived' with ⟨-, heq⟩ | ⟨rfl, -⟩
      · cases heq
      · exact hne rfl

end Sound

end SvcAuth
