import SvcAuth.SessionIdentity

/-! Whose requests can touch a session. Nothing is written to a family but by the login that
opens it and by requests that come with a refresh token handed out in it; so what a client
does leaves the sessions of everybody else alone. -/
namespace SvcAuth
open Interleave RevisionBucket RefreshTokenStore

/-- Request `t` writes to family `f`: it stores a row of it, writes one back, or revokes it. -/
def Touches (D : Deps) (ls : List Event) (t : ℕ) (f : Uuid) : Prop :=
  (∃ row, row.familyId = f ∧ (Stored D ls t row ∨ Marked D ls t row)) ∨
    ∃ m r, .call t (.put (markerKey D f) (.revoked m)) r ∈ ls

/-- Request `t` came with a refresh token of family `f` that had been handed out before. -/
def Holder (D : Deps) (S : AppState) (ls : List Event) (t : ℕ) (f : Uuid) (email : String) : Prop :=
  ∃ before after q id refreshed, ls = before ++ .arrive t q :: after ∧ HandedOut D before f id ∧
    q.refreshJwt S = some (S.jwt.refreshToken D email id refreshed)

variable {D : Deps} {S : AppState} {G : Assumption} {clock : ℕ} {ls ms : List Event}
  {c d : PhaseState} {l : Event} {t u : ℕ} {f : Uuid}

theorem Touches.mono (hsub : ls ⊆ ms) (h : Touches D ls t f) : Touches D ms t f := by
  rcases h with ⟨row, hf, hs | hm⟩ | ⟨m, r, hl⟩
  · exact .inl ⟨row, hf, .inl (hs.mono hsub)⟩
  · exact .inl ⟨row, hf, .inr (hm.mono hsub)⟩
  · exact .inr ⟨m, r, hsub hl⟩

section Writers

theorem Found.holder (hG : ∀ w r l, G w r l → Unforged D S w r l) (h : PhaseRun D S G clock ls c)
    {x : Held} (hx : Found D ls t x) : Holder D S ls t x.row.familyId x.row.email := by
  obtain ⟨email, q, jwt, now, claims, hq, hjwt, -, hverdict, -, hjti⟩ := h.lookup_verified hx
  obtain ⟨before, after, e, e', rfl, hbefore, hstep, -⟩ := Trace.at_label h hq
  have hsent := hG _ _ _ hstep.2 jwt hjwt ⟨now, claims, hverdict⟩
  obtain ⟨v, row, refreshed, hplaced, hhanded, rfl⟩ :=
    PhaseRun.sent_row hbefore (S.jwt.refreshVerdict_ne_empty D hverdict) hsent
  have hid : row.id = x.row.id := by
    rw [(S.jwt.refreshVerdict_ok D hverdict).2] at hjti
    exact Option.some.inj hjti
  obtain ⟨w, hissued⟩ := hx.issued h
  have hstored : Stored D (before ++ .arrive t q :: after) v row :=
    (hplaced.mono (List.subset_append_left before _)).stored
  obtain ⟨-, hsame⟩ := h.stored_once hstored hissued hid
  have hfamily : row.familyId = x.row.issued.familyId := congrArg RefreshToken.familyId hsame
  have hemail : row.email = x.row.issued.email := congrArg RefreshToken.email hsame
  rw [hfamily] at hhanded
  rw [hemail] at hjwt
  exact ⟨before, after, q, _, refreshed, rfl, hhanded, hjwt⟩

theorem Found.opened (hG : ∀ w r l, G w r l → Unforged D S w r l) (h : PhaseRun D S G clock ls c)
    {x : Held} (hx : Found D ls t x) : ∃ u, Opened D ls u x.row.familyId x.row.email := by
  obtain ⟨v, hissued⟩ := hx.issued h
  have horigin := PhaseRun.origin hG h v _ hissued
  exact horigin

theorem flag_found (h : PhaseRun D S G clock ls c) {k : KvKey} {m : RevokedFamily}
    {r : Except FabricError Unit} (hl : .call t (.put k (.revoked m)) r ∈ ls) :
    ∃ x, Found D ls t x ∧ k = markerKey D x.row.familyId := by
  obtain ⟨before, after, e, e', rfl, hbefore, hstep, -⟩ := Trace.at_label h hl
  obtain ⟨ph, ph', hhere, hm, -⟩ := step_call hstep.1
  obtain ⟨x, hk, hphase⟩ := hm.put_revoked
  have hheld : ph.held = some x := by
    rcases hphase with ⟨y, rfl⟩ | rfl <;> rfl
  exact ⟨x, (PhaseRun.held_found hbefore hhere hheld).mono (List.subset_append_left _ _), hk⟩

/-- Who writes to a family: the login that opens it, or a request that found a row of it. -/
theorem Touches.found (h : PhaseRun D S G clock ls c) (ht : Touches D ls t f) :
    (∃ email, Opened D ls t f email) ∨ ∃ x, Found D ls t x ∧ x.row.familyId = f := by
  rcases ht with ⟨row, rfl, ⟨r, hl⟩ | hmarked⟩ | ⟨m, r, hl⟩
  · obtain ⟨before, after, e, e', rfl, hbefore, hstep, -⟩ := Trace.at_label h hl
    have hsub : before ⊆ before ++ .call t (.put (rowKey D row.id) (.token row)) r :: after :=
      List.subset_append_left _ _
    obtain ⟨ph, ph', hhere, hm, -⟩ := step_call hstep.1
    rcases hm.put_token with ⟨x, y, rfl, -, rfl⟩ | ⟨s, p, rfl, -, rfl⟩
    · exact .inr ⟨y.held, (PhaseRun.held_found hbefore hhere rfl).mono hsub, rfl⟩
    · obtain ⟨tok, htok⟩ := PhaseRun.login_email hbefore hhere rfl
      have harrived : Arrived before t .login := PhaseRun.arrived hbefore hhere rfl
      exact .inl ⟨p.email, harrived.mono hsub, ⟨tok, hsub htok⟩, p.row, ⟨r, hl⟩, rfl⟩
  · obtain ⟨x, now, rfl, hx, -⟩ := hmarked.rotation h
    exact .inr ⟨x.held, hx, rfl⟩
  · obtain ⟨x, hx, hk⟩ := flag_found h hl
    rw [markerKey_inj] at hk
    exact .inr ⟨x, hx, hk.symm⟩

end Writers

section Frame

theorem PhaseSegment.cells_same (h : PhaseSegment D S G c ms d) {k : KvKey}
    (hwrites : ∀ t o r v, .call t o r ∈ ms → o.write ≠ some (k, v)) (hkept : ¬ Expired ms k) :
    d.world.read k = c.world.read k := by
  have hall : (∀ t o r v, .call t o r ∈ ms → o.write ≠ some (k, v)) → ¬ Expired ms k →
      d.world.bucket.cells k = c.world.bucket.cells k := by
    refine h.invariant (I := fun ms d => (∀ t o r v, .call t o r ∈ ms → o.write ≠ some (k, v)) →
      ¬ Expired ms k → d.world.bucket.cells k = c.world.bucket.cells k) (fun _ _ => rfl) ?_
    intro ms d l e prior ih hs hwrites hkept
    have hbefore := ih (fun t o r v hl => hwrites t o r v (log_grows ms l hl))
      fun ⟨p, hp, hgone⟩ => hkept ⟨p, log_grows ms l hp, hgone⟩
    rcases step_bucket hs.1 with hsame | ⟨t, o, r, ph, ph', key, v, rfl, -, -, hw, hput, -⟩ |
      ⟨p, rfl, hdrop⟩
    · rw [hsame, hbefore]
    · have hother : k ≠ key := by
        rintro rfl
        exact hwrites t o r v List.mem_concat_self hw
      rw [hput, Bucket.put_other _ _ _ hother, hbefore]
    · have hstays : p.expired k = false := by
        cases hgone : p.expired k with
        | false => rfl
        | true => exact absurd ⟨p, List.mem_concat_self, hgone⟩ hkept
      rw [hdrop, Bucket.drop_kept _ hstays, hbefore]
  simp only [World.read, hall hwrites hkept]

theorem touches_marker (h : PhaseSegment D S G c ms d) {o : Op} {r : o.Reply} {v : Entry}
    (hl : .call t o r ∈ ms) (hw : o.write = some (markerKey D f, v)) : Touches D ms t f := by
  obtain ⟨before, after, e, e', rfl, -, hstep, -⟩ := Trace.at_label h hl
  obtain ⟨ph, ph', -, hm, -⟩ := step_call hstep.1
  cases o with
  | put k v' =>
    cases hw
    cases v with
    | token row => exact absurd hm.put_pending.1 (markerKey_ne_rowKey D _ _)
    | revoked m => exact .inr ⟨m, r, hl⟩
  | updateIf k v' rev =>
    cases hw
    obtain ⟨_, _, _, -, -, hk, -⟩ := hm.updateIf
    exact absurd hk (markerKey_ne_rowKey D _ _)
  | _ => cases hw

/-- Who writes to the row of a token touches the family of the row. -/
theorem touches_row (h : PhaseRun D S G clock ls c) (hseg : PhaseSegment D S G c ms d) {o : Op}
    {r : o.Reply} {v : Entry} {row : RefreshToken} (hissued : Issued D ls row)
    (hl : .call t o r ∈ ms) (hw : o.write = some (rowKey D row.id, v)) :
    Touches D ms t row.familyId := by
  have hrun := Trace.trans h hseg
  obtain ⟨u, hstored⟩ := hissued.mono (List.subset_append_left ls ms)
  obtain ⟨before, after, e, e', hms, -, hstep, -⟩ := Trace.at_label hseg hl
  obtain ⟨ph, ph', -, hm, -⟩ := step_call hstep.1
  cases o with
  | put k v' =>
    cases hw
    cases v with
    | token row' =>
      obtain ⟨hk, -⟩ := hm.put_pending
      rw [hk] at hl
      rw [rowKey_inj] at hk
      have hstored' : Stored D ms t row' := ⟨r, hl⟩
      obtain ⟨-, hsame⟩ := PhaseRun.stored_once hrun (hstored'.mono (List.subset_append_right _ _))
        hstored hk.symm
      have hfamily : row'.familyId = row.issued.familyId := congrArg RefreshToken.familyId hsame
      exact .inl ⟨row', hfamily, .inl hstored'⟩
    | revoked m =>
      obtain ⟨_, hk, -⟩ := hm.put_revoked
      exact absurd hk (rowKey_ne_markerKey D _ _)
  | updateIf k v' rev =>
    cases hw
    obtain ⟨x, y, now, -, -, hk, rfl, -⟩ := hm.updateIf
    rw [hk] at hl
    rw [rowKey_inj] at hk
    have hmarked : Marked D ms t (y.replaced now) := ⟨rev, r, hl⟩
    obtain ⟨z, now', hz, hfound, -⟩ :=
      Marked.rotation hrun (hmarked.mono (List.subset_append_right ls ms))
    obtain ⟨w, hissued'⟩ := Found.issued hrun hfound
    have hid : z.held.row.id = row.id := (congrArg RefreshToken.id hz).symm.trans hk.symm
    obtain ⟨-, hsame⟩ := PhaseRun.stored_once hrun hissued' hstored hid
    have hfamily : z.held.row.issued.familyId = row.issued.familyId :=
      congrArg RefreshToken.familyId hsame
    exact .inl ⟨y.replaced now, (congrArg RefreshToken.familyId hz).trans hfamily, .inr hmarked⟩
  | _ => cases hw

end Frame

/-- Sessions are isolated. Whatever other clients do, only the login that opens a family and
requests that came with a refresh token handed out in it, for the email of that login, write
to the family; and as long as none of them does, its rows and its marker are as they were,
but for expiry. -/
theorem families_isolated (D : Deps) (S : AppState) (clock : ℕ) (ls ms : List Event)
    (c d : ServiceState) (f : Uuid) (h : Run D S (Unforged D S) clock ls c)
    (hseg : Segment D S (Unforged D S) c ms d) :
    (∀ t, Touches D ms t f → ∃ u email, Opened D (ls ++ ms) u f email ∧
      (t = u ∨ Holder D S (ls ++ ms) t f email)) ∧
    ((∀ t, ¬ Touches D ms t f) →
      (¬ Expired ms (markerKey D f) →
        d.world.read (markerKey D f) = c.world.read (markerKey D f)) ∧
      ∀ id row, c.world.RowOf D id row → row.familyId = f → ¬ Expired ms (rowKey D id) →
        d.world.read (rowKey D id) = c.world.read (rowKey D id)) := by
  obtain ⟨c', hc, hm⟩ := Segment.phases (mirrors_initial _) h
  obtain ⟨d', hd, hm'⟩ := Segment.phases hm hseg
  have hrun := Trace.trans hc hd
  have hG : ∀ w r l, Unforged D S w r l → Unforged D S w r l := fun _ _ _ hg => hg
  rw [hm.1, hm'.1]
  constructor
  · intro t ht
    rcases Touches.found hrun (ht.mono (List.subset_append_right ls ms)) with
      ⟨email, hopened⟩ | ⟨x, hx, rfl⟩
    · exact ⟨t, email, hopened, .inl rfl⟩
    · obtain ⟨u, hopened⟩ := Found.opened hG hrun hx
      exact ⟨u, _, hopened, .inr (Found.holder hG hrun hx)⟩
  · intro hnone
    constructor
    · exact PhaseSegment.cells_same hd fun t o r v hl hw => hnone t (touches_marker hd hl hw)
    · rintro id row hrow rfl hkept
      obtain ⟨rfl, hissued⟩ := PhaseRun.rowOf_issued hc hrow
      exact PhaseSegment.cells_same hd
        (fun t o r v hl hw => hnone t (touches_row hc hd hissued hl hw)) hkept

/-- The rotation of token 1 touches family 2, as it came with token 1 of the family. -/
theorem families_isolated_sample : ∃ ls ms c d, Run Sample.deps Sample.state
    (Unforged Sample.deps Sample.state) Sample.moment ls c ∧
    Segment Sample.deps Sample.state (Unforged Sample.deps Sample.state) c ms d ∧
    Touches Sample.deps ms 1 (serial 2) ∧
    ∃ u email, Opened Sample.deps (ls ++ ms) u (serial 2) email ∧
      (1 = u ∨ Holder Sample.deps Sample.state (ls ++ ms) 1 (serial 2) email) := by
  obtain ⟨c, hc, hm⟩ := PhaseSegment.service (mirrors_initial _)
    (opening_run Sample.deps Sample.state Sample.moment permits_unforged)
  obtain ⟨d, hd, -⟩ := PhaseSegment.service hm
    (rotation_segment Sample.deps Sample.state Sample.moment permits_unforged Sample.live)
  have htouches : Touches Sample.deps (rotationLog Sample.deps Sample.state Sample.moment) 1
      (serial 2) :=
    .inl ⟨_, rfl, .inr (rotation_committed Sample.deps Sample.state Sample.moment).marked⟩
  exact ⟨_, _, c, d, hc, hd, htouches,
    (families_isolated _ _ _ _ _ _ _ _ hc hd).1 1 htouches⟩

end SvcAuth
