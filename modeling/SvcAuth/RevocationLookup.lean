import SvcAuth.Revocation
import SvcAuth.SampleDeployment
import SvcAuth.FirstFamily

/-! What the lookup of the revoked marker guarantees, and when. A rotation commits after
its lookup, so a marker stored before the lookup stops it and a later one does not. A
lookup that fails counts as one that saw nothing. -/
namespace SvcAuth
open Interleave RevisionBucket RefreshTokenStore

variable {D : Deps} {S : AppState} {G : Assumption} {clock : ℕ} {ls ms : List Event}
  {c d : PhaseState} {t : ℕ} {f : Uuid}

theorem renews_of_done {s : ServiceState} (hm : Mirrors D S s c) {y : Ctx} {x : Draft} {sid : Uuid}
    (ht : c.threads t = some (.done y (.granted x) sid)) (hx : Found D ls t x.held) :
    Renews D S ls s t x.held.row.familyId :=
  ⟨x.held, _, hx, rfl, (hm.response t).trans (done_responds ht), done_grants rfl⟩

section FailClosed

/-- No request that begins once the marker of a family is stored hands out tokens for a
refresh token of the family, until the marker expires. -/
def FailsClosed (D : Deps) (S : AppState) (G : Assumption) : Prop :=
  ∀ clock ls c ms d f t q, Run D S G clock ls c → c.world.Revoked D f → Segment D S G c ms d →
    ¬ Expired ms (markerKey D f) → .arrive t q ∈ ms → ¬ Renews D S (ls ++ ms) d t f

/-- No lookup of a marker that is stored fails. -/
def LookupsAnswered (D : Deps) : Assumption
  | w, _, .call _ (.get k) r => ∀ f, k = markerKey D f → w.Revoked D f → failed (.get k) r = false
  | _, _, _ => True

theorem PhaseRun.answered (hG : ∀ w r l, G w r l → LookupsAnswered D w r l)
    (h : PhaseRun D S G clock ls c) (hseg : PhaseSegment D S G c ms d)
    (hmarker : c.world.Revoked D f) (hkept : ¬ Expired ms (markerKey D f))
    {r : Except FabricError (Option (Entry × Revision))}
    (hl : .call t (.get (markerKey D f)) r ∈ ms) : r ≠ .error .Unavailable := by
  obtain ⟨before, after, e, e', rfl, hbefore, hstep, -⟩ := Trace.at_label hseg hl
  have hkept' : ¬ Expired before (markerKey D f) :=
    fun ⟨p, hp, hgone⟩ => hkept ⟨p, List.mem_append_left _ hp, hgone⟩
  have hfailed := hG _ _ _ hstep.2 f rfl (h.revoked_stays hbefore hkept' hmarker)
  rintro rfl
  cases hfailed

/-- Revocation fails closed as long as lookups of a stored marker do not fail, whatever
other calls fail. -/
theorem lookups_fail_closed (D : Deps) (S : AppState) : FailsClosed D S (LookupsAnswered D) := by
  intro clock ls c ms d f t q h hmarker hseg hkept harrive hr
  obtain ⟨c', hc, hm⟩ := Segment.phases (mirrors_initial _) h
  obtain ⟨d', hd, hm'⟩ := Segment.phases hm hseg
  rw [hm.1] at hmarker
  obtain ⟨ph, y, ht, ho, hf⟩ := hr.granted (Trace.trans hc hd) hm'
  have hidle := ((Trace.arrived hd).1 t q harrive).1
  refine PhaseRun.never_cleared hc hd hmarker hkept ?_ hidle ht ?_
  · exact fun u r hl => PhaseRun.answered (fun _ _ _ hg => hg) hc hd hmarker hkept hl
  · rw [granted_cleared ho, hf]

theorem permits_lookupsAnswered : Permits S (LookupsAnswered D) :=
  ⟨fun _ _ _ _ _ => trivial, fun _ _ _ o _ hr => by
    cases o with
    | get k => exact fun _ _ _ => hr
    | _ => trivial⟩

/-- A request that presents token 4 in the revoked family is refused. -/
theorem lookups_fail_closed_sample : ∃ ls c ms d, Run Sample.deps Sample.state
    (LookupsAnswered Sample.deps) Sample.moment ls c ∧ c.world.Revoked Sample.deps (serial 2) ∧
    Segment Sample.deps Sample.state (LookupsAnswered Sample.deps) c ms d ∧
    .arrive 3 (.presenting (numberedJwt Sample.deps Sample.state Sample.moment 4)) ∈ ms ∧
    ¬ Renews Sample.deps Sample.state (ls ++ ms) d 3 (serial 2) := by
  have hG : Permits Sample.state (LookupsAnswered Sample.deps) := permits_lookupsAnswered
  obtain ⟨c, hc, hm⟩ := PhaseSegment.service (mirrors_initial _)
    (reuse_run Sample.deps Sample.state Sample.moment hG Sample.live)
  obtain ⟨d, hd, -⟩ := PhaseSegment.service hm
    (refusal_segment Sample.deps Sample.state Sample.moment hG Sample.live)
  have hmarker : c.world.Revoked Sample.deps (serial 2) := by
    rw [hm.1]
    exact ⟨_, _, reused_marker _ Sample.moment⟩
  have harrive : .arrive 3 (.presenting (numberedJwt Sample.deps Sample.state Sample.moment 4)) ∈
      refusalLog Sample.deps Sample.state Sample.moment := .head _
  exact ⟨_, c, _, d, hc, hmarker, hd, harrive, lookups_fail_closed _ _ _ _ _ _ _ _ _ _ hc hmarker hd
    (by simp [Expired, refusalLog, lookupLog]) harrive⟩

/-- A failed lookup lets a revoked family go on. -/
theorem lookup_fails_open : ¬ FailsClosed Sample.deps Sample.state Unrestricted := by
  intro hclosed
  have hG : Permits Sample.state Unrestricted := permits_unrestricted
  obtain ⟨c, hc, hm⟩ := PhaseSegment.service (mirrors_initial _)
    (reuse_run Sample.deps Sample.state Sample.moment hG Sample.live)
  have hdraft := rotation_drafted (t := 3) (x := secondHeld Sample.moment) hG rfl
    (reused_idle Sample.deps Sample.moment (by decide)) Sample.live
    (reused_sent_second _ _ Sample.moment) (reused_second _ Sample.moment) (.getFailed _ _)
    (fun _ => trivial) rfl
    (show serial 8 ∉ (reused Sample.deps Sample.moment).world.minted by simp +decide)
  have hcommit := draft_served (D := Sample.deps) (c := reused Sample.deps Sample.moment) (t := 3)
    (x := secondDraft Sample.moment) (w := (reused Sample.deps Sample.moment).world.mint (serial 8)) hG
    (show serial 8 ≠ serial 4 by decide) (reused_second _ Sample.moment)
    (show serial 9 ∉ serial 8 :: (reused Sample.deps Sample.moment).world.minted by simp +decide)
  have hms := Trace.trans hdraft hcommit
  obtain ⟨d, hd, hm'⟩ := PhaseSegment.service hm hms
  refine hclosed Sample.moment _ c _ d (serial 2) 3 _ hc ?_ hd ?_ (.head _) ?_
  · rw [hm.1]
    exact ⟨_, _, reused_marker _ Sample.moment⟩
  · simp [Expired, draftLog, lookupLog, signLog, commitLog]
  · exact renews_of_done (x := secondDraft Sample.moment) hm' (Config.move_same _ _ _ _)
      (List.mem_append_right _ (List.mem_append_left _ (draftLog_found _ _ _ _ _)))

end FailClosed

section Moment

/-- A granted rotation had committed the row it found. -/
theorem PhaseRun.granted_committed (h : PhaseRun D S G clock ls c) {ph : Phase} {y : Draft}
    (ht : c.threads t = some ph) (ho : ph.outcome = some (.granted y)) :
    ∃ now, .call t (.updateIf (rowKey D y.held.row.id) (.token (y.replaced now)) y.held.revision)
      (.ok ()) ∈ ls := by
  obtain ⟨op, r, ⟨now, heq⟩, hl⟩ := h.concluded ht ho
  cases heq
  exact ⟨now, hl⟩

/-- No request looks a revocation up once it has tried to commit. -/
theorem step_looks_first (h : PhaseSegment D S G c ls d) {row : RefreshToken}
    {k : KvKey} {r : Except FabricError (Option (Entry × Revision))} {e : PhaseState}
    (hs : Step service (machine D S) (start D S) d (.call t (.get k) r) e) :
    ¬ Marked D ls t row := by
  intro hm
  obtain ⟨ph, ht, hclosing⟩ := hm.closing h
  obtain ⟨ph', ph'', ht', hmove, -⟩ := step_call hs
  rw [ht] at ht'
  cases ht'
  rcases hmove.get with ⟨x, email, jti, rfl, -⟩ | ⟨x, email, held, rfl, -⟩ | ⟨jti, rfl, -⟩ <;>
    cases hclosing

/-- A granted request committed after every read it made. -/
theorem PhaseRun.committed_after {k : KvKey} {r : Except FabricError (Option (Entry × Revision))}
    (h : PhaseRun D S G clock (ls ++ .call t (.get k) r :: ms) c) {ph : Phase} {y : Draft}
    (ht : c.threads t = some ph) (ho : ph.outcome = some (.granted y)) :
    ∃ now, .call t (.updateIf (rowKey D y.held.row.id) (.token (y.replaced now)) y.held.revision)
      (.ok ()) ∈ ms := by
  obtain ⟨now, hcommit⟩ := h.granted_committed ht ho
  obtain ⟨e, hbefore, hrest⟩ := Trace.append_iff.mp h
  obtain ⟨e', hstep, -⟩ := Trace.cons_iff.mp hrest
  refine ⟨now, ?_⟩
  rcases List.mem_append.mp hcommit with hold | hnew
  · have hmarked : Marked D ls t (y.replaced now) := ⟨_, _, hold⟩
    exact absurd hmarked (step_looks_first hbefore hstep.1)
  · rcases List.mem_cons.mp hnew with heq | hnew
    · cases heq
    · exact hnew

/-- If nothing fails, a request that hands out new tokens had looked the revocation of its
family up when the marker was not in the store, and committed after that. -/
theorem renews_looked_up (D : Deps) (S : AppState) (clock : ℕ) (ls : List Event) (c : ServiceState)
    (h : Run D S FaultFree clock ls c) (t : ℕ) (f : Uuid) (hr : Renews D S ls c t f) :
    ∃ before r e after row, ls = before ++ .call t (.get (markerKey D f)) r :: after ∧
      Run D S FaultFree clock before e ∧
      Segment D S FaultFree e (.call t (.get (markerKey D f)) r :: after) c ∧
      ¬ e.world.Revoked D f ∧ Committed D after t row ∧ row.familyId = f := by
  obtain ⟨c', hc, hm⟩ := Segment.phases (mirrors_initial _) h
  obtain ⟨ph, y, ht, ho, rfl⟩ := hr.granted hc hm
  obtain ⟨r, hl, hread⟩ := PhaseRun.cleared_looked hc ht (granted_cleared ho)
  obtain ⟨before, after, e, e', rfl, hbefore, hstep, hafter⟩ := Trace.at_label h hl
  obtain ⟨now, hcommit⟩ := PhaseRun.committed_after hc ht ho
  obtain ⟨g, hg, hmg⟩ := Segment.phases (mirrors_initial _) hbefore
  obtain ⟨g', hlook, -⟩ := Segment.phases hmg (Trace.one hstep)
  refine ⟨before, r, e, after, y.replaced now, rfl, hbefore, Trace.cons_iff.mpr ⟨e', hstep, hafter⟩,
    ?_, ⟨y.held.revision, hcommit⟩, rfl⟩
  rw [hmg.1, ← PhaseRun.markerRead_iff hg]
  obtain ⟨g'', hlast, -⟩ := Trace.cons_iff.mp hlook
  obtain ⟨-, -, -, -, answer, -⟩ := step_call hlast.1
  rcases answer.of_get.2 with rfl | rfl
  · simp [hread]
  · cases hstep.2

/-- The rotation of token 1 to token 4 committed after it had looked the revocation up. -/
theorem renews_looked_up_sample : ∃ ls c, Run Sample.deps Sample.state FaultFree Sample.moment ls c ∧
    ∃ before r e after row,
      ls = before ++ .call 1 (.get (markerKey Sample.deps (serial 2))) r :: after ∧
      Run Sample.deps Sample.state FaultFree Sample.moment before e ∧
      Segment Sample.deps Sample.state FaultFree e
        (.call 1 (.get (markerKey Sample.deps (serial 2))) r :: after) c ∧
      ¬ e.world.Revoked Sample.deps (serial 2) ∧ Committed Sample.deps after 1 row ∧
      row.familyId = serial 2 := by
  obtain ⟨c, hc, hm⟩ := PhaseSegment.service (mirrors_initial _)
    (rotation_run Sample.deps Sample.state Sample.moment permits_faultFree Sample.live)
  exact ⟨_, c, hc, renews_looked_up _ _ _ _ c hc 1 (serial 2) (renews_of_done hm
    (Config.move_same _ _ _ _) (List.mem_append_right _ (rotation_found _ _ _)))⟩

/-- A rotation may commit and hand out tokens with the marker of its family in the store. -/
theorem commits_revoked : ¬ ∀ clock before e after c t f k v rev,
    Run Sample.deps Sample.state FaultFree clock before e →
    Segment Sample.deps Sample.state FaultFree e (.call t (.updateIf k v rev) (.ok ()) :: after) c →
    Renews Sample.deps Sample.state (before ++ .call t (.updateIf k v rev) (.ok ()) :: after) c t f →
    ¬ e.world.Revoked Sample.deps f := by
  intro hclaim
  have hG : Permits Sample.state FaultFree := permits_faultFree
  have hrun := crossing_run Sample.deps Sample.state Sample.moment hG Sample.live
  have hcommit := draft_served (D := Sample.deps) (c := crossed Sample.deps Sample.moment) (t := 2)
    (x := secondDraft Sample.moment) (w := (crossed Sample.deps Sample.moment).world) hG
    (show serial 8 ≠ serial 4 by decide) (crossed_second _ Sample.moment)
    (show serial 9 ∉ (crossed Sample.deps Sample.moment).world.minted by simp +decide)
  rw [Config.move_here (crossed_waits _ Sample.moment)] at hcommit
  -- the new row is stored and the clock read, then the old row is written back
  obtain ⟨g, hstored, hmarked⟩ := Trace.append_iff.mp (show Trace _ _ ([_, _] ++ [_, _]) _ from hcommit)
  have hmarker : g.world.Revoked Sample.deps (serial 2) :=
    PhaseRun.revoked_stays hrun hstored (by simp [Expired]) ⟨_, _, crossed_marker _ Sample.moment⟩
  obtain ⟨e, he, hme⟩ := PhaseSegment.service (mirrors_initial _) (Trace.trans hrun hstored)
  obtain ⟨c, hc, hm⟩ := PhaseSegment.service hme hmarked
  refine hclaim Sample.moment _ e _ c 2 (serial 2) _ _ _ he hc ?_ (hme.1 ▸ hmarker)
  exact renews_of_done (x := secondDraft Sample.moment) hm (Config.move_same _ _ _ _)
    (List.mem_append_left _ (List.mem_append_left _ (List.mem_append_right _
      (List.mem_append_left _ (draftLog_found _ _ _ _ _)))))

end Moment

end SvcAuth
