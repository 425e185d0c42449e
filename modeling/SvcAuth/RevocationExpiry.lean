import SvcAuth.RevocationLookup

/-! The revoked marker against the age limit of the bucket. A marker outlives every unused
row written before it, so once the marker has expired such a row has too. A row stored
after the marker outlives it in turn. -/
namespace SvcAuth
open Interleave RevisionBucket RefreshTokenStore

variable {D : Deps} {S : AppState} {G : Assumption} {clock : ℕ} {ls ms : List Event}
  {c d : PhaseState} {l : Event} {t u : ℕ} {f : Uuid}

section Ages

theorem step_clock (h : Step service (machine D S) (start D S) c l d) :
    c.world.clock ≤ d.world.clock := by
  rcases phase_step h with ⟨t, q, -, -, hw, -⟩ | ⟨t, ph, o, r, ph', -, -, -, answer, -⟩
    | ⟨e, -, hpass, -⟩
  · rw [hw]
  · rw [answer.clock]
  · rw [hpass]
    exact Nat.le_add_right _ _

theorem PhaseRun.dated (h : PhaseRun D S G clock ls c) : c.world.bucket.Dated c.world.clock := by
  refine h.invariant (I := fun _ c => c.world.bucket.Dated c.world.clock) ?_ ?_
  · exact Bucket.dated_empty _
  · intro ls c l d prior ih hs
    rcases step_bucket hs.1 with hsame | ⟨t, o, r, ph, ph', k, v, -, -, -, -, hput, -⟩ |
      ⟨e, -, hdrop⟩
    · rw [hsame]
      exact ih.mono (step_clock hs.1)
    · rw [hput]
      exact (ih.put k v).mono (step_clock hs.1)
    · rw [hdrop]
      exact (ih.drop _).mono (step_clock hs.1)

theorem PhaseSegment.stale (h : PhaseSegment D S G c ls d) {k : KvKey} {rev : Revision}
    (hc : c.world.bucket.Stale k rev) : d.world.bucket.Stale k rev := by
  refine h.invariant (I := fun _ d => d.world.bucket.Stale k rev) hc ?_
  intro ls d l e prior ih hs
  rcases step_bucket hs.1 with hsame | ⟨t, o, r, ph, ph', j, v, -, -, -, -, hput, -⟩ | ⟨p, -, hdrop⟩
  · rwa [hsame]
  · rw [hput]
    exact ih.put _ _ _
  · rw [hdrop]
    exact ih.drop _

end Ages

section Outlives

/-- The row of token `id`, if there, is used. -/
def Spent (D : Deps) (w : World) (id : Uuid) : Prop :=
  ∀ cell row, w.bucket.cells (rowKey D id) = some cell → cell.value = .token row → row.usedAt ≠ none

/-- The row of token `id` is spent, or the marker of `f` is there and was written no
earlier. -/
def Covered (D : Deps) (w : World) (f id : Uuid) : Prop :=
  Spent D w id ∨ ∃ marker, w.bucket.cells (markerKey D f) = some marker ∧
    ∀ cell, w.bucket.cells (rowKey D id) = some cell → cell.written ≤ marker.written

/-- Every step keeps a stored row covered: a write to it spends it, and the age limit takes
it no later than the marker. -/
theorem step_covered {maxAge : ℕ} (hG : ∀ w r l, G w r l → MaxAge maxAge w r l)
    (prior : PhaseRun D S G clock ls c)
    (hs : GuardedStep service (machine D S) (start D S) G c l d) {id : Uuid}
    (hpub : Published D ls id) (hc : Covered D c.world f id) : Covered D d.world f id := by
  rcases step_bucket hs.1 with hsame | ⟨t, o, r, ph, ph', k, v, rfl, ht, hm, hw, hput, -⟩ |
    ⟨e, rfl, hdrop⟩
  · unfold Covered Spent
    rwa [hsame]
  · by_cases hrow : k = rowKey D id
    · subst hrow
      obtain ⟨y, x, now, -, -, rfl, -⟩ := step_rewrites prior ht hm hw hpub
      refine .inl fun cell row hcell hv => ?_
      rw [hput, Bucket.put_same] at hcell
      cases hcell
      cases hv
      simp [Draft.replaced]
    · have hother : d.world.bucket.cells (rowKey D id) = c.world.bucket.cells (rowKey D id) := by
        rw [hput, Bucket.put_other _ _ _ (Ne.symm hrow)]
      rcases hc with hspent | ⟨marker, hmarker, hle⟩
      · exact .inl fun cell row hcell hv => hspent cell row (hother ▸ hcell) hv
      · right
        by_cases hk : k = markerKey D f
        · subst hk
          refine ⟨_, by rw [hput, Bucket.put_same], fun cell hcell => ?_⟩
          exact prior.dated _ cell (hother ▸ hcell)
        · refine ⟨marker, ?_, fun cell hcell => hle cell (hother ▸ hcell)⟩
          rw [hput, Bucket.put_other _ _ _ (Ne.symm hk), hmarker]
  · have hage := hG _ _ _ hs.2
    rw [Covered, Spent, hdrop]
    rcases hc with hspent | ⟨marker, hmarker, hle⟩
    · exact .inl fun cell row hcell hv => hspent cell row (Bucket.drop_cells hcell).1 hv
    · cases hgone : e.expired (markerKey D f) with
      | false =>
        refine .inr ⟨marker, by rw [Bucket.drop_kept _ hgone, hmarker], fun cell hcell => ?_⟩
        exact hle cell (Bucket.drop_cells hcell).1
      | true =>
        refine .inl fun cell row hcell hv => ?_
        obtain ⟨hcell, hkept⟩ := Bucket.drop_cells hcell
        -- the row is at least as old as the marker, which has expired
        have hdue := (hage _ marker hmarker).mp hgone
        have hrow := (hage _ cell hcell).mpr (by have := hle cell hcell; omega)
        rw [hkept] at hrow
        cases hrow

theorem PhaseRun.covered_stays {maxAge : ℕ} (hG : ∀ w r l, G w r l → MaxAge maxAge w r l)
    (h : PhaseRun D S G clock ls c) (hseg : PhaseSegment D S G c ms d) {id : Uuid}
    (hpub : Published D ls id) (hc : Covered D c.world f id) : Covered D d.world f id := by
  refine hseg.invariant (I := fun _ d => Covered D d.world f id) hc ?_
  intro ms d l e prior ih hs
  exact step_covered hG (h.trans prior) hs (hpub.mono (List.subset_append_left ls ms)) ih

theorem step_covers (prior : PhaseRun D S G clock ls c) {m : RevokedFamily} {id : Uuid}
    (hs : Step service (machine D S) (start D S) c
      (.call u (.put (markerKey D f) (.revoked m)) (.ok ())) d) : Covered D d.world f id := by
  obtain ⟨-, -, -, -, answer, -⟩ := step_call hs
  rw [answer.put_ok]
  refine .inr ⟨_, Bucket.put_same _ _ _ _, fun cell hcell => ?_⟩
  rw [World.put, Bucket.put_other _ _ _ (rowKey_ne_markerKey D _ _)] at hcell
  exact prior.dated _ cell hcell

end Outlives

section Lookups

/-- The bucket as the deployment guide asks for it: the age limit is the refresh TTL, and
no call fails. -/
def Aligned (S : AppState) : Assumption := Both (MaxAge S.jwt.refreshTtlSecs.toNat) FaultFree

/-- Who looks up the revocation while the row in its hand is spent commits nothing. -/
theorem PhaseRun.spent_unrenewed {t : ℕ} {y : Draft} {ph : Phase}
    {answer : Except FabricError (Option (Entry × Revision))} (h : PhaseRun D S G clock ls c)
    (hrest : PhaseSegment D S G c (.call t (.get (markerKey D f)) answer :: ms) d)
    (ht : d.threads t = some ph) (ho : ph.outcome = some (.granted y)) :
    ¬ Spent D c.world y.held.row.id := by
  intro hspent
  have hheld := granted_held ho
  have hrun := Trace.trans h hrest
  obtain ⟨e, hstep, hb⟩ := Trace.cons_iff.mp hrest
  obtain ⟨-, -, -, -, hanswer, -⟩ := step_call hstep.1
  have hfound := PhaseRun.reads_holding h hrest hstep.1 (x := y.held)
    (PhaseRun.held_found hrun ht hheld)
  have hsaw := (PhaseRun.saw h).2 _ _ _ _ hfound
  have hstale : c.world.bucket.Stale (rowKey D y.held.row.id) y.held.revision := by
    refine ⟨hsaw.1, fun hcur => ?_⟩
    obtain ⟨cell, hcell, hv⟩ := hsaw.current hcur
    exact hspent cell y.held.row hcell hv y.unused
  obtain ⟨now, hcommit⟩ := PhaseRun.committed_after hrun ht ho
  obtain ⟨b₁, b₂, g, g', rfl, hb₁, hcommits, -⟩ := Trace.at_label hb hcommit
  obtain ⟨-, -, -, -, happlied, -⟩ := step_call hcommits.1
  refine (PhaseSegment.stale hb₁ ?_).2 happlied.updateIf_ok.1
  rwa [hanswer.of_get.1]

/-- Nobody who looks up the revocation once it is stored renews the family, if the row
presented had been stored before the marker or the marker has not expired by the lookup. In
the first case it may have. -/
theorem marker_outlives (D : Deps) (S : AppState) (clock : ℕ) (before early later : List Event)
    (c d : ServiceState) (f : Uuid) (u t : ℕ) (m : RevokedFamily)
    (answer : Except FabricError (Option (Entry × Revision)))
    (h : Run D S (Aligned S) clock before c)
    (hseg : Segment D S (Aligned S) c (.call u (.put (markerKey D f) (.revoked m)) (.ok ()) ::
      (early ++ .call t (.get (markerKey D f)) answer :: later)) d)
    (hearly : (∀ x, Found D (before ++ .call u (.put (markerKey D f) (.revoked m)) (.ok ()) ::
        (early ++ .call t (.get (markerKey D f)) answer :: later)) t x →
      ∃ v, Stored D before v x.row.issued) ∨ ¬ Expired early (markerKey D f)) :
    ¬ Renews D S (before ++ .call u (.put (markerKey D f) (.revoked m)) (.ok ()) ::
      (early ++ .call t (.get (markerKey D f)) answer :: later)) d t f := by
  intro hrenews
  obtain ⟨c', hc, hm⟩ := Segment.phases (mirrors_initial _) h
  obtain ⟨d', hd, hm'⟩ := Segment.phases hm hseg
  have hrun := Trace.trans hc hd
  obtain ⟨ph, y, ht, ho, hf⟩ := hrenews.granted hrun hm'
  obtain ⟨c₁, hput, hafter⟩ := Trace.cons_iff.mp hd
  obtain ⟨e, ha, hrest⟩ := Trace.append_iff.mp hafter
  obtain ⟨e', hstep, hb⟩ := Trace.cons_iff.mp hrest
  have hrun₁ := Trace.snoc hc hput
  have hrun₂ := Trace.trans hrun₁ ha
  obtain ⟨-, -, -, -, hanswer, -⟩ := step_call hstep.1
  have hgone : ¬ e.world.Revoked D f := by
    have hunseen := PhaseRun.granted_unseen hrun ht ho (f := f) (r := answer) (by simp)
    rw [← PhaseRun.markerRead_iff hrun₂]
    rcases hanswer.of_get.2 with rfl | rfl
    · simp [hunseen]
    · cases hstep.2.2
  rcases hearly with hearly | hkept
  · have hheld := granted_held ho
    obtain ⟨v, hstored⟩ := hearly y.held (PhaseRun.held_found hrun ht hheld)
    have hpub : Published D before y.held.row.id := ⟨v, _, hstored, .inl rfl⟩
    have hcovered : Covered D e.world f y.held.row.id :=
      PhaseRun.covered_stays (fun _ _ _ hg => hg.1) hrun₁ ha
        (hpub.mono (List.subset_append_left _ _)) (step_covers hc hput.1)
    have hspent : Spent D e.world y.held.row.id := by
      refine hcovered.resolve_right ?_
      rintro ⟨marker, hmarker, -⟩
      exact hgone ((PhaseRun.revoked_iff hrun₂).mpr ⟨marker, hmarker⟩)
    exact PhaseRun.spent_unrenewed hrun₂ hrest ht ho hspent
  · -- the marker is still there at the lookup
    obtain ⟨-, -, -, -, hstored, -⟩ := step_call hput.1
    refine hgone (PhaseRun.revoked_stays hrun₁ ha hkept ?_)
    rw [PhaseRun.revoked_iff hrun₁, hstored.put_ok]
    exact ⟨_, Bucket.put_same _ _ _ _⟩

theorem permits_aligned : Permits S (Aligned S) := (permits_maxAge _).both permits_faultFree

/-- A week passes, and everything that was written before it expires. -/
def Sample.week : Passage := ⟨604800, fun _ => true⟩

theorem Sample.week_aligned (responses : ℕ → Option Response) :
    Aligned state (finding deps moment).world responses (.env week) := by
  refine ⟨fun k cell hcell => ?_, trivial⟩
  have hwritten : cell.written = moment := reused_cells deps moment hcell
  rw [hwritten]
  exact ⟨fun _ => le_rfl, fun _ => rfl⟩

/-- Request 3 has read the row of token 4 when the marker expires, and everything with it; it
is refused all the same. -/
theorem marker_outlives_sample : ∃ before early later c d,
    Run Sample.deps Sample.state (Aligned Sample.state) Sample.moment before c ∧
    Segment Sample.deps Sample.state (Aligned Sample.state) c
      (.call 2 (.put (markerKey Sample.deps (serial 2)) (.revoked ⟨Sample.moment⟩)) (.ok ()) ::
        (early ++ .call 3 (.get (markerKey Sample.deps (serial 2))) (.ok none) :: later)) d ∧
    Expired early (markerKey Sample.deps (serial 2)) ∧
    ¬ Renews Sample.deps Sample.state (before ++
      .call 2 (.put (markerKey Sample.deps (serial 2)) (.revoked ⟨Sample.moment⟩)) (.ok ()) ::
        (early ++ .call 3 (.get (markerKey Sample.deps (serial 2))) (.ok none) :: later)) d 3
      (serial 2) := by
  have hG : Permits Sample.state (Aligned Sample.state) := permits_aligned
  have hrun := reuse_run Sample.deps Sample.state Sample.moment hG Sample.live
  obtain ⟨b, hexpiry, hended⟩ := expiry_segment Sample.deps Sample.state Sample.moment Sample.week
    hG Sample.live rfl rfl Sample.week_aligned
  have hwhole := Trace.trans hrun hexpiry
  have hsplit : [.call 2 .nowV7 (serial 7)] ++
      expiryLog Sample.deps Sample.state Sample.moment Sample.week =
      ([.call 2 .nowV7 (serial 7)] ++ (findLog Sample.deps 3
        (numberedJwt Sample.deps Sample.state Sample.moment 4) (secondHeld Sample.moment)
        Sample.moment ++ [.env Sample.week])) ++ _ := (List.append_assoc _ _ _).symm
  rw [reuse_split, List.append_assoc, List.cons_append, hsplit] at hwhole
  obtain ⟨e, hbefore, hafter⟩ := Trace.append_iff.mp hwhole
  obtain ⟨c, hc, hm⟩ := PhaseSegment.service (mirrors_initial _) hbefore
  obtain ⟨d, hd, -⟩ := PhaseSegment.service hm hafter
  refine ⟨_, _, _, c, d, hc, hd, ⟨Sample.week, by simp, rfl⟩,
    marker_outlives _ _ _ _ _ _ c d _ 2 3 _ _ hc hd (.inl fun x hx => ?_)⟩
  rw [found_of_done hwhole hended rfl hx]
  exact ⟨1, _, List.mem_append_left _ (List.mem_append_right _ (List.mem_append_right _ (.head _)))⟩

section Revival
variable (D S clock)

/-- The second between the marker and the late commit. -/
def late : Passage := ⟨1, fun _ => false⟩

/-- The rest of the age limit: what was written at the late commit stays. -/
def rest (maxAge : ℕ) : Passage :=
  ⟨maxAge - 1, fun k => k ≠ rowKey D (serial 4) && k ≠ rowKey D (serial 8)⟩

theorem late_aligned (httl : 1 < S.jwt.refreshTtlSecs.toNat) (responses : ℕ → Option Response) :
    Aligned S (crossed D clock).world responses (.env late) := by
  have hclock : (crossed D clock).world.clock = clock := rfl
  refine ⟨fun k cell hcell => ?_, trivial⟩
  simp only [late, Bool.false_eq_true, false_iff, hclock]
  have hcells : cell.written = clock := crossed_cells D clock hcell
  omega

theorem rest_aligned (hlive : ¬ S.jwt.RefreshLapsed clock clock)
    (httl : 1 < S.jwt.refreshTtlSecs.toNat) (responses : ℕ → Option Response) :
    Aligned S (renewed D clock late).world responses
      (.env (rest D S.jwt.refreshTtlSecs.toNat)) := by
  refine ⟨fun k cell hcell => ?_, trivial⟩
  have hdue : (rest D S.jwt.refreshTtlSecs.toNat).expired k = true ↔
      k ≠ rowKey D (serial 4) ∧ k ≠ rowKey D (serial 8) := by
    simp [rest]
  have htime : (renewed D clock late).world.clock + (rest D S.jwt.refreshTtlSecs.toNat).seconds =
      clock + 1 + (S.jwt.refreshTtlSecs.toNat - 1) := rfl
  rw [hdue, htime]
  rcases renewed_cells D clock late hcell with ⟨hrow, hwritten⟩ | ⟨hne, hne', hold⟩
  · have hlate : cell.written = clock + 1 := hwritten
    constructor
    · rintro ⟨h, h'⟩
      exact absurd hrow (not_or.mpr ⟨h, h'⟩)
    · intro hle
      omega
  · have hdated : cell.written ≤ clock :=
      PhaseRun.dated (crossing_run D S clock permits_unrestricted hlive) _ _ hold
    exact ⟨fun _ => by omega, fun _ => ⟨hne, hne'⟩⟩

/-- Wherever the refresh TTL is more than a second and a token still verifies at the end of
it, a family comes back to life: its marker was stored between a lookup and a commit, and
once the marker has expired the row of that commit is good again. -/
theorem marker_outlived (httl : 1 < S.jwt.refreshTtlSecs.toNat)
    (hlive : ¬ S.jwt.RefreshLapsed clock clock)
    (hlater : ¬ S.jwt.RefreshLapsed clock (clock + S.jwt.refreshTtlSecs.toNat)) :
    ∃ before early later c d answer, Run D S (Aligned S) clock before c ∧
      Segment D S (Aligned S) c
        (.call 3 (.put (markerKey D (serial 2)) (.revoked ⟨clock⟩)) (.ok ()) ::
          (early ++ .call 4 (.get (markerKey D (serial 2))) answer :: later)) d ∧
      Renews D S (before ++ .call 3 (.put (markerKey D (serial 2)) (.revoked ⟨clock⟩)) (.ok ()) ::
        (early ++ .call 4 (.get (markerKey D (serial 2))) answer :: later)) d 4 (serial 2) := by
  have hG : Permits S (Aligned S) := permits_aligned
  have htime : clock + late.seconds + (rest D S.jwt.refreshTtlSecs.toNat).seconds =
      clock + S.jwt.refreshTtlSecs.toNat := by
    simp only [late, rest]
    omega
  have hrevival := revival_segment D S clock late (rest D S.jwt.refreshTtlSecs.toNat) hG
    (htime.symm ▸ hlater) rfl (late_aligned D S clock httl) (by simp [rest]) (by simp [rest])
    (rest_aligned D S clock hlive httl)
  have hwhole := Trace.trans (crossing_run D S clock hG hlive) hrevival
  rw [crossing_split, List.append_assoc] at hwhole
  obtain ⟨e, hbefore, hafter⟩ := Trace.append_iff.mp hwhole
  obtain ⟨c, hc, hm⟩ := PhaseSegment.service (mirrors_initial _) hbefore
  obtain ⟨d, hd, hm'⟩ := PhaseSegment.service hm hafter
  have hdrafted : ∀ {ls : List Event} {l : Event}, l ∈ draftLog D 4 (numberedJwt D S clock 8)
      (thirdDraft clock (clock + late.seconds + (rest D S.jwt.refreshTtlSecs.toNat).seconds))
      (clock + late.seconds + (rest D S.jwt.refreshTtlSecs.toNat).seconds) (.ok none) →
      l ∈ ls ++ revivalLog D S clock late (rest D S.jwt.refreshTtlSecs.toNat) := fun hl =>
    List.mem_append_right _ (List.mem_append_right _ (List.mem_append_left _ hl))
  have hlook : .call 4 (.get (markerKey D (serial 2))) (.ok none) ∈
      [.call 3 .nowV7 (serial 7)] ++
        revivalLog D S clock late (rest D S.jwt.refreshTtlSecs.toNat) :=
    hdrafted (List.mem_of_getElem? (i := 3) rfl)
  have hfound : Found D ([.call 3 .nowV7 (serial 7)] ++
      revivalLog D S clock late (rest D S.jwt.refreshTtlSecs.toNat)) 4 (thirdHeld clock) :=
    hdrafted (draftLog_found _ _ _ _ _)
  obtain ⟨early, later, hsplit⟩ := List.append_of_mem hlook
  rw [List.cons_append, hsplit] at hd
  rw [hsplit] at hfound
  exact ⟨_, early, later, c, d, _, hc, hd, renews_of_done (x := thirdDraft clock _) hm'
    (Config.move_same _ _ _ _) (List.mem_append_right _ (.tail _ hfound))⟩

end Revival

/-- The marker does not outlive every token it must block. -/
theorem marker_expires_early : ¬ ∀ clock before after c d f u t m answer,
    Run Sample.deps Sample.state (Aligned Sample.state) clock before c →
    Segment Sample.deps Sample.state (Aligned Sample.state) c
      (.call u (.put (markerKey Sample.deps f) (.revoked m)) (.ok ()) :: after) d →
    .call t (.get (markerKey Sample.deps f)) answer ∈ after →
    ¬ Renews Sample.deps Sample.state
      (before ++ .call u (.put (markerKey Sample.deps f) (.revoked m)) (.ok ()) :: after) d t f := by
  intro hclaim
  obtain ⟨before, early, later, c, d, answer, hc, hd, hrenews⟩ := marker_outlived Sample.deps
    Sample.state Sample.moment (by decide) Sample.live (Sample.live_later (by decide))
  exact hclaim _ _ _ c d _ _ _ _ _ hc hd (List.mem_append_right _ (.head _)) hrenews

end Lookups

end SvcAuth
