import SvcAuth.PhaseRequests
import SvcAuth.PhaseResponses
import SvcAuth.StoreRows
import SvcAuth.PhaseFollows

/-! The revoked marker and the lookup that honours it. A rotation hands out tokens only
after a lookup that did not see the marker; so the marker binds every lookup made while it
is stored, and nothing else does. -/
namespace SvcAuth
open Interleave RevisionBucket RefreshTokenStore

/-- Request `t` found a row of family `f` and handed out new tokens for it. -/
def Renews (D : Deps) (S : AppState) (ls : List Event) (c : ServiceState) (t : ℕ) (f : Uuid) :
    Prop :=
  ∃ x r, Found D ls t x ∧ x.row.familyId = f ∧ c.response t = some r ∧ Grants S r

variable {D : Deps} {S : AppState} {G : Assumption} {clock : ℕ} {ls ms : List Event}
  {c d : PhaseState} {l : Event} {t u : ℕ} {f : Uuid}

section Marker

theorem PhaseRun.revoked_iff (h : PhaseRun D S G clock ls c) :
    c.world.Revoked D f ↔ ∃ cell, c.world.bucket.cells (markerKey D f) = some cell := by
  constructor
  · rintro ⟨m, rev, hread⟩
    obtain ⟨cell, hcell, -⟩ := World.read_eq_some hread
    exact ⟨cell, hcell⟩
  · rintro ⟨cell, hcell⟩
    obtain ⟨m, hv⟩ := h.marker_cell hcell
    exact ⟨m, cell.revision, by simp [World.read, hcell, hv]⟩

theorem PhaseRun.markerRead_iff (h : PhaseRun D S G clock ls c) :
    markerRead (.ok (c.world.read (markerKey D f))) = true ↔ c.world.Revoked D f := by
  cases hcell : c.world.bucket.cells (markerKey D f) with
  | none => simp [World.read, hcell, markerRead, World.Revoked]
  | some cell =>
    obtain ⟨m, hv⟩ := h.marker_cell hcell
    simp [World.read, hcell, hv, markerRead, World.Revoked]

theorem PhaseRun.revoked_stays (h : PhaseRun D S G clock ls c) (hseg : PhaseSegment D S G c ms d)
    (hkept : ¬ Expired ms (markerKey D f)) (hc : c.world.Revoked D f) : d.world.Revoked D f := by
  have hcell := h.revoked_iff.mp hc
  rw [PhaseRun.revoked_iff (h.trans hseg)]
  have hall : ¬ Expired ms (markerKey D f) →
      ∃ cell, d.world.bucket.cells (markerKey D f) = some cell := by
    refine hseg.invariant (I := fun ms d => ¬ Expired ms (markerKey D f) →
      ∃ cell, d.world.bucket.cells (markerKey D f) = some cell) (fun _ => hcell) ?_
    intro ms d l e _ ih hs hkept
    obtain ⟨cell, hcell⟩ := ih fun ⟨e, he, hgone⟩ => hkept ⟨e, log_grows ms l he, hgone⟩
    refine (step_keeps hs.1 hcell).resolve_right ?_
    rintro ⟨e, rfl, hgone⟩
    exact hkept ⟨e, List.mem_concat_self, hgone⟩
  exact hall hkept

theorem PhaseRun.marker_stored (hG : ∀ w r l, G w r l → NoExpiry w r l)
    (h : PhaseRun D S G clock ls c) {m : RevokedFamily}
    (hl : .call t (.put (markerKey D f) (.revoked m)) (.ok ()) ∈ ls) : c.world.Revoked D f := by
  obtain ⟨before, after, e, e', rfl, hbefore, hstep, hafter⟩ := Trace.at_label h hl
  have hrun := Trace.snoc hbefore hstep
  refine PhaseRun.revoked_stays hrun hafter (not_expired hG hafter) ?_
  rw [PhaseRun.revoked_iff hrun]
  obtain ⟨-, -, -, -, answer, -⟩ := step_call hstep.1
  rw [answer.put_ok]
  exact ⟨_, Bucket.put_same _ _ _ _⟩

theorem PhaseRun.marker_seen (hG : ∀ w r l, G w r l → NoExpiry w r l)
    (h : PhaseRun D S G clock ls c) {m : RevokedFamily} {rev : Revision}
    (hl : .call t (.get (markerKey D f)) (.ok (some (.revoked m, rev))) ∈ ls) :
    c.world.Revoked D f := by
  obtain ⟨before, after, e, e', rfl, hbefore, hstep, hafter⟩ := Trace.at_label h hl
  have hrun := Trace.snoc hbefore hstep
  refine PhaseRun.revoked_stays hrun hafter (not_expired hG hafter) ?_
  obtain ⟨cell, hcell, -⟩ := step_read hstep.1
  rw [PhaseRun.revoked_iff hrun]
  obtain ⟨-, -, -, -, answer, -⟩ := step_call hstep.1
  rw [answer.of_get.1]
  exact ⟨cell, hcell⟩

end Marker

section Lookup

theorem PhaseRun.cleared_looked (h : PhaseRun D S G clock ls c) {ph : Phase}
    (ht : c.threads t = some ph) (hf : ph.cleared = some f) :
    ∃ r, .call t (.get (markerKey D f)) r ∈ ls ∧ markerRead r = false := by
  refine h.known (P := fun ls t ph => ∀ f, ph.cleared = some f →
    ∃ r, .call t (.get (markerKey D f)) r ∈ ls ∧ markerRead r = false) ?_ ?_ ?_ t ph ht f hf
  · intro ls l t ph ih f hf
    obtain ⟨r, hl, hr⟩ := ih f hf
    exact ⟨r, log_grows ls l hl, hr⟩
  · intro ls t q ph hs f hf
    rw [hs.cleared] at hf
    cases hf
  · intro ls c t ph o r ph' w prior ht ih hm hw f hf
    rcases hm.cleared hf with hold | ⟨r, heq, hr⟩
    · obtain ⟨r', hl, hr⟩ := ih f hold
      exact ⟨r', log_grows _ _ hl, hr⟩
    · cases heq
      exact ⟨r, List.mem_concat_self, hr⟩

theorem PhaseRun.grants_granted (h : PhaseRun D S G clock ls c) {ph : Phase} {r : Response}
    {x : Held} (ht : c.threads t = some ph) (hview : view D S ph = .inl r) (hr : Grants S r)
    (hx : Found D ls t x) : ∃ y : Draft, ph.outcome = some (.granted y) ∧ y.held = x := by
  obtain ⟨ph', ht', hheld⟩ := hx.held h
  rw [ht] at ht'
  cases ht'
  obtain ⟨o, a, b, ho, htokens⟩ := (grants_iff hview).mp hr
  have hheld' : o.held = some x := by
    cases ph <;> cases ho <;> exact hheld
  cases o with
  | granted y => exact ⟨y, ho, Option.some.inj hheld'⟩
  | opened p => cases hheld'
  | _ => cases htokens

theorem Renews.granted {s : ServiceState} (h : PhaseRun D S G clock ls c) (hm : Mirrors D S s c)
    (hr : Renews D S ls s t f) : ∃ ph y, c.threads t = some ph ∧
      ph.outcome = some (.granted y) ∧ y.held.row.familyId = f := by
  obtain ⟨x, r, hx, hf, hresponse, hgrants⟩ := hr
  rw [hm.response] at hresponse
  obtain ⟨ph, ht, hview⟩ := finished_iff.mp hresponse
  obtain ⟨y, ho, rfl⟩ := h.grants_granted ht hview hgrants hx
  exact ⟨ph, y, ht, ho, hf⟩

theorem rotation_renews {s : ServiceState} (h : PhaseRun D S G clock ls c) (hm : Mirrors D S s c)
    (hkind : Arrived ls t .rotation) {r : Response} (hr : s.response t = some r)
    (hgrants : Grants S r) : ∃ f, Renews D S ls s t f := by
  have hresponse := hr
  rw [hm.response] at hresponse
  obtain ⟨ph, ht, hview⟩ := finished_iff.mp hresponse
  obtain ⟨o, a, b, ho, htokens⟩ := (grants_iff hview).mp hgrants
  cases o with
  | granted y =>
    exact ⟨_, y.held, r, h.held_found ht (granted_held ho), rfl, hr, hgrants⟩
  | opened p =>
    cases Arrived.unique h hkind (h.arrived ht (opened_kind ho))
  | _ => cases htokens

/-- A lookup that saw the marker ended the request. -/
def Heeds (D : Deps) : (o : Op) → o.Reply → Phase → Prop
  | .get k, r, ph => (∃ f, k = markerKey D f) → markerRead r = true →
    ∃ x, ph.outcome = some (.revoked x)
  | _, _, _ => True

theorem Moves.heeds {ph ph' : Phase} {o : Op} {r : o.Reply} (h : Moves D S ph ⟨o, r⟩ ph') :
    Heeds D o r ph' := by
  cases h with
  | revoked => exact fun _ _ => ⟨_, rfl⟩
  | clear read =>
    intro _ hseen
    rw [read] at hseen
    cases hseen
  | unread => exact fun ⟨f, hk⟩ => absurd hk (rowKey_ne_markerKey D _ _)
  | misread => exact fun ⟨f, hk⟩ => absurd hk (rowKey_ne_markerKey D _ _)
  | missing => exact fun ⟨f, hk⟩ => absurd hk (rowKey_ne_markerKey D _ _)
  | found => exact fun ⟨f, hk⟩ => absurd hk (rowKey_ne_markerKey D _ _)
  | logoutMissing => exact fun ⟨f, hk⟩ => absurd hk (rowKey_ne_markerKey D _ _)
  | logoutFound => exact fun ⟨f, hk⟩ => absurd hk (rowKey_ne_markerKey D _ _)
  | _ => trivial

/-- Who reads a marker holds the row it will be granted for. -/
theorem PhaseRun.reads_holding (h : PhaseRun D S G clock ls c) (hseg : PhaseSegment D S G c ms d)
    {r : Except FabricError (Option (Entry × Revision))} {e : PhaseState}
    (hs : Step service (machine D S) (start D S) c (.call t (.get (markerKey D f)) r) e) {x : Held}
    (hx : Found D (ls ++ ms) t x) : Found D ls t x := by
  obtain ⟨ph, ph', ht, hm, -⟩ := step_call hs
  obtain ⟨y, hy⟩ : ∃ y, ph.held = some y := by
    rcases hm.get with ⟨z, email, jti, -, hk⟩ | ⟨z, email, y, rfl, -⟩ | ⟨jti, -, hk⟩
    · exact absurd hk (markerKey_ne_rowKey D _ _)
    · exact ⟨y, rfl⟩
    · exact absurd hk (markerKey_ne_rowKey D _ _)
  have hfound := h.held_found ht hy
  obtain ⟨ph₁, ht₁, hx₁⟩ := hx.held (Trace.trans h hseg)
  obtain ⟨ph₂, ht₂, hy₂⟩ := (hfound.mono (List.subset_append_left ls ms)).held (Trace.trans h hseg)
  rw [ht₁] at ht₂
  cases ht₂
  rw [hx₁] at hy₂
  cases hy₂
  exact hfound

/-- A granted request never saw a marker. -/
theorem PhaseRun.granted_unseen (h : PhaseRun D S G clock ls c) {ph : Phase} {y : Draft}
    (ht : c.threads t = some ph) (ho : ph.outcome = some (.granted y))
    {r : Except FabricError (Option (Entry × Revision))}
    (hl : .call t (.get (markerKey D f)) r ∈ ls) : markerRead r = false := by
  have hkeep : ∀ ph o r ph' o' r', Moves D S ph ⟨o, r⟩ ph' → Heeds D o' r' ph →
      Heeds D o' r' ph' := by
    intro ph o r ph' o' r' hm hq
    cases o' with
    | get k => exact fun hk hseen => (hq hk hseen).imp fun x hx => hm.outcome_kept hx
    | _ => trivial
  obtain ⟨ph', ht', hq⟩ := PhaseSegment.after (Q := Heeds D) (fun _ _ _ _ hm => hm.heeds) hkeep h hl
  rw [ht] at ht'
  cases ht'
  cases hread : markerRead r with
  | false => rfl
  | true =>
    obtain ⟨x, hx⟩ := hq ⟨f, rfl⟩ hread
    rw [ho] at hx
    cases hx

/-- While the marker is stored and every lookup of it is answered, no request that begins
is cleared. -/
theorem PhaseRun.never_cleared (h : PhaseRun D S G clock ls c) (hseg : PhaseSegment D S G c ms d)
    (hmarker : c.world.Revoked D f) (hkept : ¬ Expired ms (markerKey D f))
    (hanswered : ∀ t r, .call t (.get (markerKey D f)) r ∈ ms → r ≠ .error .Unavailable)
    (hidle : c.threads t = none) {ph : Phase} (ht : d.threads t = some ph) :
    ph.cleared ≠ some f := by
  have hall : ¬ Expired ms (markerKey D f) →
      (∀ t r, .call t (.get (markerKey D f)) r ∈ ms → r ≠ .error .Unavailable) →
      ∀ ph, d.threads t = some ph → ph.cleared ≠ some f := by
    refine hseg.invariant (I := fun ms d => ¬ Expired ms (markerKey D f) →
      (∀ t r, .call t (.get (markerKey D f)) r ∈ ms → r ≠ .error .Unavailable) →
      ∀ ph, d.threads t = some ph → ph.cleared ≠ some f) ?_ ?_
    · intro _ _ ph ht
      rw [hidle] at ht
      cases ht
    · intro ms d l e hprior ih hs hkept hanswered ph' ht' hcleared
      have hkept' : ¬ Expired ms (markerKey D f) :=
        fun ⟨e, he, hgone⟩ => hkept ⟨e, log_grows ms l he, hgone⟩
      have ih' := ih hkept' fun t r hl => hanswered t r (log_grows ms l hl)
      rcases hs.1.thread ht' with hsame | ⟨q, rfl, -, rfl⟩ | ⟨ph₀, o, k, r, rfl, h₀, hv, rfl, hw⟩
      · exact ih' ph' hsame hcleared
      · rw [(starts D S q).cleared] at hcleared
        cases hcleared
      · rcases (moves_of_view D S hv r).cleared hcleared with hold | ⟨r', heq, hread⟩
        · exact ih' ph₀ h₀ hold
        · cases heq
          have hrun : PhaseRun D S G clock (ls ++ ms) d := h.trans hprior
          rcases (Answers.of_get hw).2 with hok | herror
          · have hseen := hrun.markerRead_iff.mpr
              (PhaseRun.revoked_stays h hprior hkept' hmarker)
            rw [← hok, hread] at hseen
            cases hseen
          · exact hanswered t _ List.mem_concat_self herror
  exact hall hkept hanswered ph ht

end Lookup

end SvcAuth
