import SvcAuth.StoreLog

/-! The life of a row. It is stored once, under a UUID drawn for it. It is written back
used at most once, by a request that read it unused, and stays as that request wrote it.
Nothing else about it ever changes. -/
namespace SvcAuth
open Interleave RevisionBucket RefreshTokenStore

variable {D : Deps} {S : AppState} {G : Assumption} {clock : ℕ} {ls ms : List Event}
  {c d : PhaseState} {l : Event} {t u : ℕ}

section Reading

theorem step_stamped (h : Step service (machine D S) (start D S) c l d)
    (hc : c.world.bucket.Stamped) : d.world.bucket.Stamped := by
  rcases step_bucket h with hsame | ⟨t, o, r, ph, ph', k, v, -, -, -, -, hput, -⟩ | ⟨e, -, hdrop⟩
  · rwa [hsame]
  · rw [hput]
    exact hc.put _ _ _
  · rw [hdrop]
    exact hc.drop _

theorem step_saw (h : Step service (machine D S) (start D S) c l d) {k : KvKey} {v : Entry}
    {rev : Revision} (hc : c.world.bucket.Saw k v rev) : d.world.bucket.Saw k v rev := by
  rcases step_bucket h with hsame | ⟨t, o, r, ph, ph', k, v, -, -, -, -, hput, -⟩ | ⟨e, -, hdrop⟩
  · rwa [hsame]
  · rw [hput]
    exact hc.put _ _ _
  · rw [hdrop]
    exact hc.drop _

theorem PhaseRun.saw (h : PhaseRun D S G clock ls c) : c.world.bucket.Stamped ∧
    ∀ t k v rev, .call t (.get k) (.ok (some (v, rev))) ∈ ls → c.world.bucket.Saw k v rev := by
  refine h.invariant (I := fun ls c => c.world.bucket.Stamped ∧ ∀ t k v rev,
    .call t (.get k) (.ok (some (v, rev))) ∈ ls → c.world.bucket.Saw k v rev) ?_ ?_
  · exact ⟨Bucket.stamped_empty, by simp⟩
  · intro ls c l d prior ih hs
    refine ⟨step_stamped hs.1 ih.1, fun t k v rev hl => ?_⟩
    rw [List.mem_append, List.mem_singleton] at hl
    rcases hl with hl | rfl
    · exact step_saw hs.1 (ih.2 t k v rev hl)
    · obtain ⟨cell, hcell, rfl, rfl⟩ := step_read hs.1
      exact step_saw hs.1 (ih.1.saw hcell)

end Reading

section Issuing

theorem PhaseRun.issued (h : PhaseRun D S G clock ls c) :
    Throughout (fun ls _ v => ∀ row, v = .token row → Issued D ls row) ls c := by
  refine h.throughout (fun ls l k v hp row hv => (hp row hv).mono (log_grows ls l)) ?_
  intro ls c t ph o r ph' k v prior ih ht hm hw row hv
  have hmark : ∀ (d : Draft) (now : ℕ), ph.held = some d.held → row = d.replaced now →
      Issued D (ls ++ [.call t o r]) row := by
    rintro d now hd rfl
    have hfound := ih.reads _ _ _ _ (prior.held_found ht hd) d.held.row rfl
    exact Issued.mono (log_grows _ _) hfound
  cases hm with
  | stored => cases hw; cases hv; exact ⟨t, _, List.mem_concat_self⟩
  | storeFailed => cases hw; cases hv; exact ⟨t, _, List.mem_concat_self⟩
  | marked => cases hw; cases hv; exact hmark _ _ rfl rfl
  | conflict => cases hw; cases hv; exact hmark _ _ rfl rfl
  | markFailed => cases hw; cases hv; exact hmark _ _ rfl rfl
  | revoke => cases hw; cases hv
  | logoutRevoke => cases hw; cases hv
  | loginStored => cases hw; cases hv; exact ⟨t, _, List.mem_concat_self⟩
  | loginFailed => cases hw; cases hv; exact ⟨t, _, List.mem_concat_self⟩
  | _ => cases hw

theorem PhaseRun.rowOf_issued (h : PhaseRun D S G clock ls c) {id : Uuid} {row : RefreshToken}
    (hrow : c.world.RowOf D id row) : row.id = id ∧ Issued D ls row := by
  obtain ⟨cell, hcell, hv⟩ := World.rowOf_iff.mp hrow
  obtain ⟨row', hv', hid⟩ := h.row_cell hcell
  rw [hv] at hv'
  cases hv'
  exact ⟨hid, h.issued.cells _ _ hcell _ hv⟩

theorem Found.issued (h : PhaseRun D S G clock ls c) {x : Held} (hf : Found D ls t x) :
    Issued D ls x.row :=
  h.issued.reads _ _ _ _ hf _ rfl

end Issuing

section Freshness

/-- The UUID appears in a row that some request tried to store. -/
def Published (D : Deps) (ls : List Event) (u : Uuid) : Prop :=
  ∃ t row, Stored D ls t row ∧ (row.id = u ∨ row.familyId = u)

theorem Published.mono (hsub : ls ⊆ ms) {v : Uuid} (h : Published D ls v) : Published D ms v := by
  obtain ⟨t, row, hs, hv⟩ := h
  exact ⟨t, row, hs.mono hsub, hv⟩

theorem Issued.published {row : RefreshToken} (h : Issued D ls row) :
    Published D ls row.id ∧ Published D ls row.familyId := by
  obtain ⟨t, hs⟩ := h
  exact ⟨⟨t, _, hs, .inl rfl⟩, ⟨t, _, hs, .inr rfl⟩⟩

theorem stored_snoc {row : RefreshToken} (h : Stored D (ls ++ [l]) t row) :
    Stored D ls t row ∨ ∃ r, l = .call t (.put (rowKey D row.id) (.token row)) r := by
  obtain ⟨r, hl⟩ := h
  rw [List.mem_append, List.mem_singleton] at hl
  rcases hl with hl | rfl
  · exact .inl ⟨r, hl⟩
  · exact .inr ⟨r, rfl⟩

theorem published_snoc {v : Uuid} (h : Published D (ls ++ [l]) v) :
    Published D ls v ∨ ∃ t k row r, l = .call t (.put k (.token row)) r ∧
      (row.id = v ∨ row.familyId = v) := by
  obtain ⟨t, row, hs, hv⟩ := h
  rcases stored_snoc hs with hs | ⟨r, rfl⟩
  · exact .inl ⟨t, row, hs, hv⟩
  · exact .inr ⟨t, _, row, r, rfl, hv⟩

theorem step_minted (h : Step service (machine D S) (start D S) c l d) {v : Uuid}
    (hv : v ∈ c.world.minted) : v ∈ d.world.minted := by
  rcases phase_step h with ⟨t, q, -, -, hw, -⟩ | ⟨t, ph, o, r, ph', -, -, -, answer, -⟩
    | ⟨e, -, hpass, -⟩
  · rwa [hw]
  · exact answer.minted_mono hv
  · rwa [hpass]

/-- A UUID pending after a step was pending before it, or was drawn by it. Trying to
store a row leaves nothing pending. -/
theorem step_pending (h : Step service (machine D S) (start D S) c l d) {ph' : Phase} {v : Uuid}
    (ht : d.threads t = some ph') (hv : v ∈ ph'.pending) :
    (∃ ph, c.threads t = some ph ∧ v ∈ ph.pending ∧ ∀ k row r, l ≠ .call t (.put k (.token row)) r) ∨
      l = .call t .nowV7 v ∧ v ∉ c.world.minted ∧ v ∈ d.world.minted := by
  rcases phase_step h with ⟨t₀, q, rfl, -, -, hd⟩ | ⟨t₀, ph₀, o, r, ph₁, rfl, here, hm, answer, hd⟩
    | ⟨e, rfl, -, hd⟩
  · rw [hd] at ht
    by_cases htt : t = t₀
    · subst htt
      rw [Function.update_self] at ht
      cases ht
      rw [(starts D S q).pending] at hv
      cases hv
    · rw [Function.update_of_ne htt] at ht
      exact .inl ⟨ph', ht, hv, by simp⟩
  · rw [hd] at ht
    by_cases htt : t = t₀
    · subst htt
      rw [Function.update_self] at ht
      cases ht
      rcases hm.pending with hsub | ⟨v', heq, hsub⟩
      · refine .inl ⟨ph₀, here, hsub hv, ?_⟩
        rintro k row r' heq
        cases heq
        rw [hm.put_pending.2.2.1] at hv
        cases hv
      · cases heq
        obtain ⟨hfresh, hminted⟩ := answer.nowV7_fresh
        rcases List.mem_cons.mp (hsub hv) with rfl | hold
        · exact .inr ⟨rfl, hfresh, by simp [hminted]⟩
        · exact .inl ⟨ph₀, here, hold, by simp⟩
    · rw [Function.update_of_ne htt] at ht
      refine .inl ⟨ph', ht, hv, ?_⟩
      rintro k row r' heq
      cases heq
      exact htt rfl
  · rw [hd] at ht
    exact .inl ⟨ph', ht, hv, by simp⟩

/-- What a request has drawn is nobody else's and in no stored row yet. -/
structure Fresh (D : Deps) (ls : List Event) (c : PhaseState) : Prop where
  published : ∀ v, Published D ls v → v ∈ c.world.minted
  minted : ∀ t ph v, c.threads t = some ph → v ∈ ph.pending → v ∈ c.world.minted
  unpublished : ∀ t ph v, c.threads t = some ph → v ∈ ph.pending → ¬ Published D ls v
  own : ∀ t ph t' ph' v, c.threads t = some ph → c.threads t' = some ph' → v ∈ ph.pending →
    v ∈ ph'.pending → t = t'

/-- What a request stores it has drawn itself, except for the family of the row it holds. -/
theorem step_stores (prior : PhaseRun D S G clock ls c)
    (h : Step service (machine D S) (start D S) c l d) {k : KvKey} {row : RefreshToken}
    {r : Except FabricError Unit} (hl : l = .call t (.put k (.token row)) r) :
    ∃ ph, c.threads t = some ph ∧ k = rowKey D row.id ∧ row.usedAt = none ∧ row.id ∈ ph.pending ∧
      (row.familyId ∈ ph.pending ∨ Published D ls row.familyId) := by
  subst hl
  obtain ⟨ph, ph', here, hm, -⟩ := step_call h
  obtain ⟨hk, hunused, -, hid, hfam⟩ := hm.put_pending
  refine ⟨ph, here, hk, hunused, hid, hfam.imp id ?_⟩
  rintro ⟨x, hx, hxf⟩
  rw [← hxf]
  exact ((prior.held_found here hx).issued prior).published.2

theorem PhaseRun.fresh (h : PhaseRun D S G clock ls c) : Fresh D ls c := by
  refine h.invariant (I := fun ls c => Fresh D ls c) ?_ ?_
  · constructor
    · rintro v ⟨t, row, ⟨r, hl⟩, -⟩
      cases hl
    · intro t ph v ht
      cases ht
    · intro t ph v ht
      cases ht
    · intro t ph t' ph' v ht
      cases ht
  · intro ls c l d prior ih hs
    -- whatever the step publishes was pending or published before it
    have hnew : ∀ t k row r v, l = .call t (.put k (.token row)) r →
        (row.id = v ∨ row.familyId = v) →
        (∃ ph, c.threads t = some ph ∧ v ∈ ph.pending) ∨ Published D ls v := by
      intro t k row r v hl hv
      obtain ⟨ph, ht, -, -, hid, hfam⟩ := step_stores prior hs.1 hl
      rcases hv with rfl | rfl
      · exact .inl ⟨ph, ht, hid⟩
      · exact hfam.imp (fun hf => ⟨ph, ht, hf⟩) id
    constructor
    · intro v hv
      rcases published_snoc hv with hold | ⟨t, k, row, r, hl, hrow⟩
      · exact step_minted hs.1 (ih.published v hold)
      · rcases hnew t k row r v hl hrow with ⟨ph, ht, hp⟩ | hold
        · exact step_minted hs.1 (ih.minted t ph v ht hp)
        · exact step_minted hs.1 (ih.published v hold)
    · intro t ph' v ht hv
      rcases step_pending hs.1 ht hv with ⟨ph, ht₀, hv₀, -⟩ | ⟨-, -, hminted⟩
      · exact step_minted hs.1 (ih.minted t ph v ht₀ hv₀)
      · exact hminted
    · intro t ph' v ht hv hpub
      rcases step_pending hs.1 ht hv with ⟨ph, ht₀, hv₀, hno⟩ | ⟨rfl, hfresh, -⟩
      · rcases published_snoc hpub with hold | ⟨t₁, k, row, r, hl, hrow⟩
        · exact ih.unpublished t ph v ht₀ hv₀ hold
        · rcases hnew t₁ k row r v hl hrow with ⟨ph₁, ht₁, hp₁⟩ | hold
          · cases ih.own t ph t₁ ph₁ v ht₀ ht₁ hv₀ hp₁
            exact hno k row r hl
          · exact ih.unpublished t ph v ht₀ hv₀ hold
      · rcases published_snoc hpub with hold | ⟨t₁, k, row, r, hl, -⟩
        · exact hfresh (ih.published v hold)
        · cases hl
    · intro t ph t' ph' v ht ht' hv hv'
      rcases step_pending hs.1 ht hv with ⟨ph₀, ht₀, hv₀, -⟩ | ⟨hl, hfresh, -⟩ <;>
        rcases step_pending hs.1 ht' hv' with ⟨ph₁, ht₁, hv₁, -⟩ | ⟨hl', hfresh', -⟩
      · exact ih.own t ph₀ t' ph₁ v ht₀ ht₁ hv₀ hv₁
      · exact absurd (ih.minted t ph₀ v ht₀ hv₀) hfresh'
      · exact absurd (ih.minted t' ph₁ v ht₁ hv₁) hfresh
      · rw [hl] at hl'
        cases hl'
        rfl

theorem PhaseRun.stored_once (h : PhaseRun D S G clock ls c) {row row' : RefreshToken}
    (hs : Stored D ls t row) (hs' : Stored D ls u row') (hid : row.id = row'.id) :
    t = u ∧ row = row' := by
  -- whoever stores a row has drawn its UUID, which is in no row stored before
  have hfirst : ∀ {before e e' t row r u row'}, PhaseRun D S G clock before e →
      GuardedStep service (machine D S) (start D S) G e
        (.call t (.put (rowKey D row.id) (.token row)) r) e' →
      Stored D before u row' → row.id ≠ row'.id := by
    intro before e e' t row r u row' hbefore hstep hold hid
    obtain ⟨ph, ht, -, -, hpend, -⟩ := step_stores hbefore hstep.1 rfl
    exact (PhaseRun.fresh hbefore).unpublished t ph _ ht hpend ⟨u, row', hold, .inl hid.symm⟩
  obtain ⟨r, hl⟩ := hs
  obtain ⟨r', hl'⟩ := hs'
  rcases Trace.first_of_two h hl hl' with heq | ⟨before, _, e, e', -, hbefore, hstep, hold⟩ |
    ⟨before, _, e, e', -, hbefore, hstep, hold⟩
  · injection heq with ht ho hr
    injection ho with hk hv
    exact ⟨ht, Entry.token.inj hv⟩
  · exact absurd hid (hfirst hbefore hstep ⟨r', hold⟩)
  · exact absurd hid.symm (hfirst hbefore hstep ⟨r, hold⟩)

theorem Stored.only (h : PhaseRun D S G clock ls c) {row row' : RefreshToken}
    (hs : Stored D ls t row) (hs' : Stored D ls t row') : row = row' := by
  have hfirst : ∀ {before e e' k row r row'}, PhaseRun D S G clock before e →
      GuardedStep service (machine D S) (start D S) G e (.call t (.put k (.token row)) r) e' →
      ¬ Stored D before t row' := by
    rintro before e e' k row r row' hbefore hstep ⟨r', hold⟩
    obtain ⟨ph, ph', ht, hm, -⟩ := step_call hstep.1
    obtain ⟨ph₁, ht₁, hpast⟩ := PhaseSegment.after
      (Q := fun o _ ph => (∃ k row, o = .put k (.token row)) → ph.pastStore = true)
      (by
        rintro ph o r ph' hm ⟨k, row, rfl⟩
        exact hm.put_pastStore.2)
      (fun _ _ _ _ _ _ hm hq ho => hm.pastStore (hq ho)) hbefore hold
    rw [ht] at ht₁
    cases ht₁
    rw [hm.put_pastStore.1] at hpast
    cases hpast ⟨_, _, rfl⟩
  obtain ⟨r, hl⟩ := hs
  obtain ⟨r', hl'⟩ := hs'
  rcases Trace.first_of_two h hl hl' with heq | ⟨before, _, e, e', -, hbefore, hstep, hold⟩ |
    ⟨before, _, e, e', -, hbefore, hstep, hold⟩
  · injection heq with _ ho _
    injection ho with _ hv
    exact Entry.token.inj hv
  · exact absurd ⟨r', hold⟩ (hfirst hbefore hstep)
  · exact absurd ⟨r, hold⟩ (hfirst hbefore hstep)

end Freshness

section Marking

theorem PhaseRun.draft_placed (h : PhaseRun D S G clock ls c) {ph : Phase} {x : Draft}
    (ht : c.threads t = some ph) (hx : ph.draft = some x) : Placed D ls t x.successor := by
  refine h.known (P := fun ls t ph => ∀ x, ph.draft = some x → Placed D ls t x.successor)
    ?_ ?_ ?_ t ph ht x hx
  · exact fun ls l t ph ih x hx => (ih x hx).mono (log_grows ls l)
  · intro ls t q ph hs x hx
    rw [hs.draft] at hx
    cases hx
  · intro ls c t ph o r ph' w prior ht ih hm hw x hx
    rcases hm.draft hx with hold | heq
    · exact (ih x hold).mono (log_grows _ _)
    · cases heq
      exact List.mem_concat_self

/-- A row is only ever written back by a rotation that read it unused and has stored its
successor, and only the two fields that record this change. -/
theorem Marked.rotation (h : PhaseRun D S G clock ls c) {row : RefreshToken}
    (hm : Marked D ls t row) : ∃ (x : Draft) (now : ℕ), row = x.replaced now ∧
      Found D ls t x.held ∧ Placed D ls t x.successor := by
  have hall : ∀ t row, Marked D ls t row → ∃ (x : Draft) (now : ℕ), row = x.replaced now ∧
      Found D ls t x.held ∧ Placed D ls t x.successor := by
    refine h.invariant (I := fun ls _ => ∀ t row, Marked D ls t row →
      ∃ (x : Draft) (now : ℕ), row = x.replaced now ∧ Found D ls t x.held ∧
        Placed D ls t x.successor) ?_ ?_
    · rintro t row ⟨rev, r, hl⟩
      cases hl
    · rintro ls c l d prior ih hs t row ⟨rev, r, hl⟩
      rw [List.mem_append, List.mem_singleton] at hl
      rcases hl with hl | rfl
      · obtain ⟨x, now, hrow, hf, hp⟩ := ih t row ⟨rev, r, hl⟩
        exact ⟨x, now, hrow, hf.mono (log_grows _ _), hp.mono (log_grows _ _)⟩
      · obtain ⟨ph, ph', here, hm, -⟩ := step_call hs.1
        obtain ⟨y, x, now, rfl, -, -, hv, -⟩ := hm.updateIf
        refine ⟨x, now, Entry.token.inj hv, ?_, ?_⟩
        · exact (PhaseRun.held_found prior here rfl).mono (log_grows _ _)
        · exact (PhaseRun.draft_placed prior here rfl).mono (log_grows _ _)
  exact hall t row hm

theorem Marked.published (h : PhaseRun D S G clock ls c) {row : RefreshToken}
    (hm : Marked D ls t row) : Published D ls row.id := by
  obtain ⟨x, now, rfl, hf, -⟩ := hm.rotation h
  exact (hf.issued h).published.1

theorem PhaseRun.used_marked (h : PhaseRun D S G clock ls c) : Throughout
    (fun ls _ v => ∀ row, v = .token row → row.usedAt ≠ none → ∃ t, Marked D ls t row) ls c := by
  refine h.throughout (fun ls l k v hp row hv hu =>
    (hp row hv hu).imp fun _ hm => hm.mono (log_grows ls l)) ?_
  intro ls c t ph o r ph' k v prior ih ht hm hw row hv hu
  cases hm with
  | stored => cases hw; cases hv; exact absurd rfl hu
  | storeFailed => cases hw; cases hv; exact absurd rfl hu
  | marked => cases hw; cases hv; exact ⟨t, _, _, List.mem_concat_self⟩
  | conflict => cases hw; cases hv; exact ⟨t, _, _, List.mem_concat_self⟩
  | markFailed => cases hw; cases hv; exact ⟨t, _, _, List.mem_concat_self⟩
  | revoke => cases hw; cases hv
  | logoutRevoke => cases hw; cases hv
  | loginStored => cases hw; cases hv; exact absurd rfl hu
  | loginFailed => cases hw; cases hv; exact absurd rfl hu
  | _ => cases hw

/-- A conditional write that applies finds the row the request read, still unused. -/
theorem step_applies (prior : PhaseRun D S G clock ls c) {ph ph' : Phase} {k : KvKey} {v : Entry}
    {rev : Revision} {r : Except FabricError Unit} (here : c.threads t = some ph)
    (hm : Moves D S ph ⟨.updateIf k v rev, r⟩ ph') (hcur : c.world.bucket.Current k rev) :
    ∃ cell row, c.world.bucket.cells k = some cell ∧ cell.value = .token row ∧
      row.usedAt = none ∧ k = rowKey D row.id := by
  obtain ⟨y, x, now, rfl, -, rfl, -, rfl⟩ := hm.updateIf
  have hfound := PhaseRun.held_found prior here (show (Phase.mark y x now).held = some x.held from rfl)
  obtain ⟨cell, hcell, hv⟩ := (prior.saw.2 t _ _ _ hfound).current hcur
  exact ⟨cell, x.held.row, hcell, hv, x.unused, rfl⟩

/-- Whoever writes to a row that is already stored is committing it. -/
theorem step_rewrites (prior : PhaseRun D S G clock ls c) {ph ph' : Phase} {o : Op} {r : o.Reply}
    (here : c.threads t = some ph) (hm : Moves D S ph ⟨o, r⟩ ph') {id : Uuid} {v : Entry}
    (hw : o.write = some (rowKey D id, v)) (hpub : Published D ls id) :
    ∃ y x now, ph = .mark y x now ∧ x.held.row.id = id ∧ v = .token (x.replaced now) ∧
      o = .updateIf (rowKey D id) v x.held.revision := by
  cases o with
  | put k v' =>
    exfalso
    cases hw
    cases v with
    | token row =>
      obtain ⟨hk, -, -, hpending, -⟩ := hm.put_pending
      rw [rowKey_inj] at hk
      subst hk
      exact (PhaseRun.fresh prior).unpublished t ph _ here hpending hpub
    | revoked m =>
      obtain ⟨held, hk, -⟩ := hm.put_revoked
      exact rowKey_ne_markerKey D _ _ hk
  | updateIf k v' rev =>
    cases hw
    obtain ⟨y, x, now, rfl, -, hk, rfl, rfl⟩ := hm.updateIf
    rw [rowKey_inj] at hk
    exact ⟨y, x, now, rfl, hk.symm, rfl, rfl⟩
  | _ => cases hw

theorem Committed.stands (h : PhaseRun D S G clock ls c) {row : RefreshToken}
    (hc : Committed D ls t row) {cell : Cell Entry}
    (hcell : c.world.bucket.cells (rowKey D row.id) = some cell) : cell.value = .token row := by
  have hall : ∀ t row, Committed D ls t row → ∀ cell,
      c.world.bucket.cells (rowKey D row.id) = some cell → cell.value = .token row := by
    refine h.invariant (I := fun ls c => ∀ t row, Committed D ls t row → ∀ cell,
      c.world.bucket.cells (rowKey D row.id) = some cell → cell.value = .token row) ?_ ?_
    · rintro t row ⟨rev, hl⟩
      cases hl
    · rintro ls c l d prior ih hs t row ⟨rev, hl⟩ cell hcell
      rw [List.mem_append, List.mem_singleton] at hl
      rcases hl with hl | rfl
      · have hold : Committed D ls t row := ⟨rev, hl⟩
        obtain ⟨x, now, rfl, -, -⟩ := hold.marked.rotation prior
        rcases step_bucket hs.1 with hsame | ⟨t', o, r, ph, ph', k, v, rfl, ht', hm, hw, hput, hcur⟩
          | ⟨e, rfl, hdrop⟩
        · rw [hsame] at hcell
          exact ih t _ hold cell hcell
        · rw [hput] at hcell
          rcases Bucket.put_cases hcell with ⟨hk, rfl⟩ | ⟨-, hcell⟩
          · exfalso
            subst hk
            obtain ⟨y, z, now', -, -, -, rfl⟩ :=
              step_rewrites prior ht' hm hw (hold.marked.published prior)
            obtain ⟨cell', row', hcell', hv', hunused, -⟩ := step_applies prior ht' hm (hcur _ rfl)
            rw [ih t _ hold cell' hcell'] at hv'
            cases hv'
            cases hunused
          · exact ih t _ hold cell hcell
        · rw [hdrop] at hcell
          exact ih t _ hold cell (Bucket.drop_cells hcell).1
      · obtain ⟨-, -, -, -, answer, -⟩ := step_call hs.1
        rw [answer.updateIf_ok.2, World.put, Bucket.put_same] at hcell
        cases hcell
        rfl
  exact hall t row hc cell hcell

/-- Once a row has been committed no other request can commit it. -/
theorem step_commits_once (prior : PhaseRun D S G clock ls c) {v : Entry} {rev : Revision}
    {id : Uuid} {t' : ℕ} {row : RefreshToken}
    (h : Step service (machine D S) (start D S) c
      (.call t (.updateIf (rowKey D id) v rev) (.ok ())) d)
    (hc : Committed D ls t' row) : row.id ≠ id := by
  rintro rfl
  obtain ⟨x, now, rfl, -, -⟩ := hc.marked.rotation prior
  obtain ⟨ph, ph', here, hm, answer, -⟩ := step_call h
  obtain ⟨cell, row', hcell, hv, hunused, -⟩ := step_applies prior here hm answer.updateIf_ok.1
  rw [hc.stands prior hcell] at hv
  cases hv
  cases hunused

theorem Committed.once (h : PhaseRun D S G clock ls c) {row row' : RefreshToken}
    (hc : Committed D ls t row) (hc' : Committed D ls u row') (hid : row.id = row'.id) : t = u := by
  obtain ⟨rev, hl⟩ := hc
  obtain ⟨rev', hl'⟩ := hc'
  rcases Trace.first_of_two h hl hl' with heq | ⟨before, _, e, e', -, hbefore, hstep, hold⟩ |
    ⟨before, _, e, e', -, hbefore, hstep, hold⟩
  · injection heq
  · exact absurd hid.symm (step_commits_once hbefore hstep.1 ⟨rev', hold⟩)
  · exact absurd hid (step_commits_once hbefore hstep.1 ⟨rev, hold⟩)

end Marking

section Keeping

theorem PhaseSegment.cell_kept (h : PhaseSegment D S G c ls d) {k : KvKey} {cell : Cell Entry}
    (hcell : c.world.bucket.cells k = some cell) : d.world.bucket.cells k = some cell ∨
      (∃ t o r v, .call t o r ∈ ls ∧ o.write = some (k, v)) ∨ Expired ls k := by
  refine h.invariant (I := fun ls d => d.world.bucket.cells k = some cell ∨
    (∃ t o r v, .call t o r ∈ ls ∧ o.write = some (k, v)) ∨ Expired ls k) (.inl hcell) ?_
  intro ls d l e prior ih hs
  rcases ih with hd | ⟨t, o, r, v, hl, hw⟩ | ⟨p, hp, hgone⟩
  · rcases step_bucket hs.1 with hsame | ⟨t, o, r, ph, ph', key, v, rfl, -, -, hw, hput, -⟩ |
      ⟨p, rfl, hdrop⟩
    · exact .inl (by rw [hsame, hd])
    · by_cases hk : k = key
      · subst hk
        exact .inr (.inl ⟨t, o, r, v, List.mem_concat_self, hw⟩)
      · exact .inl (by rw [hput, Bucket.put_other _ _ _ hk, hd])
    · cases hgone : p.expired k with
      | true => exact .inr (.inr ⟨p, List.mem_concat_self, hgone⟩)
      | false => exact .inl (by rw [hdrop, Bucket.drop_kept _ hgone, hd])
  · exact .inr (.inl ⟨t, o, r, v, log_grows _ _ hl, hw⟩)
  · exact .inr (.inr ⟨p, log_grows _ _ hp, hgone⟩)

theorem step_keeps (h : Step service (machine D S) (start D S) c l d) {k : KvKey} {cell : Cell Entry}
    (hcell : c.world.bucket.cells k = some cell) :
    (∃ cell, d.world.bucket.cells k = some cell) ∨ ∃ e, l = .env e ∧ e.expired k = true := by
  rcases step_bucket h with hsame | ⟨t, o, r, ph, ph', key, v, -, -, -, -, hput, -⟩ | ⟨e, rfl, hdrop⟩
  · exact .inl ⟨cell, by rwa [hsame]⟩
  · rw [hput]
    by_cases hk : k = key
    · subst hk
      exact .inl ⟨_, Bucket.put_same _ _ _ _⟩
    · exact .inl ⟨cell, by rw [Bucket.put_other _ _ _ hk, hcell]⟩
  · rw [hdrop]
    cases hgone : e.expired k with
    | true => exact .inr ⟨e, rfl, hgone⟩
    | false => exact .inl ⟨cell, by rw [Bucket.drop_kept _ hgone, hcell]⟩

theorem Placed.kept (h : PhaseRun D S G clock ls c) {row : RefreshToken} (hp : Placed D ls t row) :
    (∃ row', c.world.RowOf D row.id row') ∨ Expired ls (rowKey D row.id) := by
  have hall : ∀ t row, Placed D ls t row →
      (∃ cell, c.world.bucket.cells (rowKey D row.id) = some cell) ∨
        Expired ls (rowKey D row.id) := by
    refine h.invariant (I := fun ls c => ∀ t row, Placed D ls t row →
      (∃ cell, c.world.bucket.cells (rowKey D row.id) = some cell) ∨
        Expired ls (rowKey D row.id)) ?_ ?_
    · intro t row hp
      cases hp
    · intro ls c l d prior ih hs t row hp
      rcases List.mem_append.mp hp with hold | hnew
      · rcases ih t row hold with ⟨cell, hcell⟩ | ⟨e, he, hgone⟩
        · refine (step_keeps hs.1 hcell).imp id ?_
          rintro ⟨e, rfl, hgone⟩
          exact ⟨e, List.mem_concat_self, hgone⟩
        · exact .inr ⟨e, log_grows ls l he, hgone⟩
      · rw [List.mem_singleton] at hnew
        subst hnew
        obtain ⟨-, -, -, -, answer, -⟩ := step_call hs.1
        rw [answer.put_ok]
        exact .inl ⟨_, Bucket.put_same _ _ _ _⟩
  refine (hall t row hp).imp (fun ⟨cell, hcell⟩ => ?_) id
  obtain ⟨row', hv, -⟩ := h.row_cell hcell
  exact ⟨row', World.rowOf_iff.mpr ⟨cell, hcell, hv⟩⟩

end Keeping

end SvcAuth
