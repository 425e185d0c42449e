import SvcAuth.LiveSessions
import SvcAuth.LogoutRevocation

/-! A rotation that failed on a write, and the same refresh token presented again. The error
does not say whether the write was applied; a row that was marked used behind it makes the
retry look like a replay. -/
namespace SvcAuth
open Interleave RefreshTokenStore

/-- A rotation of an unused row at its current revision that fails on a write, which the bucket
may have applied all the same. Other requests leave the session alone. -/
structure FailedRotation (D : Deps) where
  w : World
  old : RefreshToken
  revision : Revision
  standing : Standing D w old revision
  unused : old.usedAt = none
  new : RefreshToken
  fresh : new.id ≠ old.id
  early : List Calls.Event
  op : Op
  reply : op.Reply
  error : StoreError
  ran : Prog.Ran (rotate D old revision new) (early ++ [⟨op, reply⟩]) (.error (.Store error))
  mid : World
  worlds : Trace (AmongOthers D old.id old.familyId) w early mid
  before : World
  kept : SessionKept D old.id old.familyId mid before
  after : World
  answer : Answers before op reply after

/-- A later request that presents the refresh token again, to a bucket that answers. -/
structure Retry {D : Deps} (S : AppState) (g : FailedRotation D) where
  later : World
  kept : SessionKept D g.old.id g.old.familyId g.after later
  q : Request
  tr : List Calls.Event
  response : Response
  done : World
  renewing : Renewing D S g.old.id g.old.familyId later q tr response done
  faultless : Faultless tr

section Failure
variable {D : Deps} {old new : RefreshToken} {revision : Revision} {early : List Calls.Event}
  {op : Op} {reply : op.Reply} {e : StoreError}

/-- A rotation that fails in the store does so on its last call, one of its two writes. -/
theorem rotation_failed
    (h : RotateCalls D old revision new (early ++ [⟨op, reply⟩]) (.error (.Store e))) :
    (early = [] ∧ ∃ e, (⟨op, reply⟩ : Calls.Event) =
      ⟨.put (rowKey D new.id) (.token new), .error e⟩) ∨
    ∃ (now : ℕ) (e : FabricError), e ≠ .RevisionConflict ∧
      early = [⟨.put (rowKey D new.id) (.token new), .ok ()⟩, ⟨.utcNow, now⟩] ∧
      (⟨op, reply⟩ : Calls.Event) = ⟨.updateIf (rowKey D old.id)
        (.token { old with usedAt := some now, replacedBy := some new.id }) revision, .error e⟩ := by
  generalize htr : early ++ [⟨op, reply⟩] = tr at h
  cases h with
  | unstored =>
    have hsplit : early ++ [⟨op, reply⟩] = [] ++ [_] := htr
    obtain ⟨hearly, hlast⟩ := List.append_inj' hsplit rfl
    exact .inl ⟨hearly, _, (List.cons.inj hlast).1⟩
  | unmarked unused other =>
    have hsplit : early ++ [⟨op, reply⟩] = [_, _] ++ [_] := htr
    obtain ⟨hearly, hlast⟩ := List.append_inj' hsplit rfl
    exact .inr ⟨_, _, other, hearly, (List.cons.inj hlast).1⟩

end Failure

namespace FailedRotation
variable {D : Deps} (g : FailedRotation D)

/-- What the failed rotation left behind: the session as it was, or a row that is marked used
though the write of the mark was reported as failed. -/
theorem leaves : ((g.op.checks = true → g.after = g.before) ∧
      SessionKept D g.old.id g.old.familyId g.w g.after) ∨
    (g.op.checks = true ∧ g.after ≠ g.before) ∧ ∃ (row : RefreshToken) (revision : Revision),
      row.id = g.old.id ∧ row.familyId = g.old.familyId ∧ row.usedAt.isSome ∧
        Standing D g.after row revision := by
  obtain ⟨w, old, revision, standing, unused, new, fresh, early, op, reply, error, ran, mid, worlds,
    before, kept, after, answer⟩ := g
  have hput : (Op.put (rowKey D new.id) (.token new)).Spares D old.id old.familyId :=
    spares_put _ fresh
  rcases rotation_failed (rotate_ran ran) with ⟨rfl, e, hlast⟩ | ⟨now, e, hother, rfl, hlast⟩
  · cases hlast
    rw [Trace.nil_iff] at worlds
    subst worlds
    exact .inl ⟨nofun, kept.trans (answer.kept hput)⟩
  · cases hlast
    have hearly : SessionKept D old.id old.familyId w mid := by
      have hfine : Faultless [⟨.put (rowKey D new.id) (.token new), .ok ()⟩, ⟨.utcNow, now⟩] := by
        simp [Faultless, failed]
      refine unapplied_kept (hfine.unapplied worlds) ?_
      simpa using ⟨hput, spares_utcNow⟩
    cases answer with
    | updateIfConflict => exact absurd rfl hother
    | updateIfLost => exact .inl ⟨fun _ => rfl, hearly.trans kept⟩
    | updateIfUnacknowledged current =>
      have hdrawn := kept.minted (hearly.minted standing.drawn)
      let marked : RefreshToken := { old with usedAt := some now, replacedBy := some new.id }
      have hstored := World.put_read_same before (rowKey D old.id) (.token marked)
      exact .inr ⟨⟨rfl, (World.put_ne _ _ _).symm⟩, marked, _, rfl, rfl, rfl, hstored, hdrawn⟩

end FailedRotation

/-- The retry rotates and the family lives on exactly if the family was not revoked before and
the failed write, where it was that of `mark_used`, was lost. -/
theorem retry_rotates_iff (D : Deps) (S : AppState) (g : FailedRotation D) (h : Retry S g) :
    (h.response.Rotated S ∧ ¬ h.done.Revoked D g.old.familyId) ↔
      ¬ g.w.Revoked D g.old.familyId ∧ (g.op.checks = true → g.after = g.before) := by
  have hrenewing := h.renewing
  rcases g.leaves with ⟨hlost, hkept⟩ |
    ⟨⟨hchecks, happlied⟩, row, revision, hid, hfamily, hused, hstanding⟩
  · have hlater := hkept.trans h.kept
    have hstanding := g.standing.kept hlater
    constructor
    · rintro ⟨hrotated, -⟩
      refine ⟨fun hrevoked => ?_, hlost⟩
      exact hrenewing.dead h.faultless hstanding (.inr (hlater.revoked.mpr hrevoked)) hrotated
    · rintro ⟨hlive, -⟩
      exact hrenewing.live h.faultless hstanding g.unused (hlater.revoked.not.mpr hlive)
  · have hlater := h.kept
    rw [← hid, ← hfamily] at hrenewing hlater
    constructor
    · rintro ⟨hrotated, -⟩
      have hdead := hrenewing.dead h.faultless (hstanding.kept hlater) (.inl hused)
      exact absurd hrotated hdead
    · rintro ⟨-, hlost⟩
      exact absurd (hlost hchecks) happlied

section Sample

namespace Sample

/-- A row, and the one that is to replace it. -/
def replaced : RefreshToken := ⟨serial 1, "user@example.com", serial 2, none, none, moment⟩

def replacement : RefreshToken := ⟨serial 3, "user@example.com", serial 2, none, none, moment⟩

/-- The row as `mark_used` leaves it. -/
def marked : RefreshToken := { replaced with usedAt := some moment, replacedBy := some (serial 3) }

/-- The store before the rotation, and after the new row is stored. -/
def unrotated : World :=
  ((((World.initial moment).mint (serial 1)).mint (serial 2)).put (rowKey deps (serial 1))
    (.token replaced)).mint (serial 3)

def begun : World := unrotated.put (rowKey deps (serial 3)) (.token replacement)

/-- The mark is applied, and its acknowledgement does not arrive. -/
def unacknowledged : FailedRotation deps where
  w := unrotated
  old := replaced
  revision := 1
  standing := ⟨World.put_read_same _ _ _, by decide⟩
  unused := rfl
  new := replacement
  fresh := by decide
  early := [⟨.put (rowKey deps (serial 3)) (.token replacement), .ok ()⟩, ⟨.utcNow, moment⟩]
  op := .updateIf (rowKey deps (serial 1)) (.token marked) 1
  reply := .error .Unavailable
  error := .Kv .Unavailable
  ran := RotateCalls.ran (.unmarked (by decide) (by decide))
  mid := begun
  worlds := Trace.cons_iff.mpr ⟨begun, ⟨_, .refl _ _ _ _, .put _ _ _⟩,
    .one ⟨_, .refl _ _ _ _, .utcNow _⟩⟩
  before := begun
  kept := .refl _ _ _ _
  after := begun.put (rowKey deps (serial 1)) (.token marked)
  answer := .updateIfUnacknowledged _ _ _ _ (World.current_of_read (v := .token replaced)
    ((World.put_read_other _ _ (by simp +decide)).trans (World.put_read_same _ _ _)))

end Sample

/-- The body of the retry: the same refresh token once more. -/
def Sample.again : RefreshRequest :=
  ⟨some (Sample.state.jwt.refreshToken Sample.deps "user@example.com" (serial 1) Sample.moment)⟩

theorem Sample.again_presents :
    resolveRefreshToken Sample.state ((some Sample.again).getD ⟨none⟩) ⟨none, none⟩ =
      some (Sample.state.jwt.refreshToken Sample.deps "user@example.com" (serial 1) Sample.moment) := by
  have hne := Sample.state.jwt.refreshToken_ne_empty Sample.deps "user@example.com" (serial 1)
    Sample.moment
  simp [resolveRefreshToken, Sample.again, hne]

theorem Answers.get_read {w : World} {k : KvKey} {x : Option (Entry × Revision)}
    (h : w.read k = x) : Answers w (.get k) (.ok x) w :=
  h ▸ .get w k

/-- The calls of the retry. -/
def Sample.replay : List Calls.Event :=
  [⟨.utcNow, moment⟩, ⟨.get (rowKey deps (serial 1)), .ok (some (.token marked, 3))⟩,
    ⟨.get (markerKey deps (serial 2)), .ok none⟩, ⟨.utcNow, moment⟩, ⟨.nowV7, serial 4⟩,
    ⟨.utcNow, moment⟩, ⟨.utcNow, moment⟩, ⟨.utcNow, moment⟩,
    ⟨.put (markerKey deps (serial 2)) (.revoked ⟨Sample.moment⟩), .ok ()⟩] ++ [⟨.nowV7, serial 5⟩]

theorem Sample.replay_ran : ∃ r, Prog.Ran (serve Sample.deps Sample.state
    (.refresh ⟨none, none⟩ (some Sample.again))) Sample.replay r := by
  have hreused : RotateCalls Sample.deps Sample.marked 3
      ⟨serial 4, "user@example.com", serial 2, none, none, Sample.moment⟩
      [⟨.utcNow, moment⟩, ⟨.put (markerKey Sample.deps (serial 2)) (.revoked ⟨Sample.moment⟩), .ok ()⟩]
      (.error (.Reuse (serial 2))) := .reused rfl
  have hunmarked : markerRead (.ok none) = false := rfl
  have hrenewal := rotating_ran Sample.moment Sample.moment (accepts_live Sample.live _ (serial 1))
    hunmarked hreused
  rw [serve, refreshHandler_eq Sample.again_presents]
  exact ⟨_, Prog.ran_bind.mpr ⟨_, _, _, rfl, hrenewal, .call (.ret _)⟩⟩

/-- The world the retry leaves. -/
def Sample.revoked : World :=
  ((Sample.unacknowledged.after.mint (serial 4)).put (markerKey Sample.deps (serial 2))
    (.revoked ⟨Sample.moment⟩)).mint (serial 5)

theorem Sample.replay_worlds :
    Trace service.answers Sample.unacknowledged.after Sample.replay Sample.revoked := by
  have hother : ∀ k, k ≠ rowKey Sample.deps (serial 1) → k ≠ rowKey Sample.deps (serial 3) →
      Sample.unacknowledged.after.read k = none := by
    intro k h₁ h₃
    exact (World.put_read_other _ _ h₁).trans ((World.put_read_other _ _ h₃).trans
      (World.put_read_other _ _ h₁))
  have hmarker := hother _ (markerKey_ne_rowKey _ (serial 2) _) (markerKey_ne_rowKey _ (serial 2) _)
  refine Trace.cons_iff.mpr ⟨_, .utcNow _, ?_⟩
  refine Trace.cons_iff.mpr ⟨_, .get_read (World.put_read_same _ _ _), ?_⟩
  refine Trace.cons_iff.mpr ⟨_, .get_read hmarker, Trace.cons_iff.mpr ⟨_, .utcNow _, ?_⟩⟩
  refine Trace.cons_iff.mpr ⟨_, .nowV7 _ _ (by decide), Trace.cons_iff.mpr ⟨_, .utcNow _, ?_⟩⟩
  refine Trace.cons_iff.mpr ⟨_, .utcNow _, Trace.cons_iff.mpr ⟨_, .utcNow _, ?_⟩⟩
  exact Trace.cons_iff.mpr ⟨_, .put _ _ _, .one (.nowV7 _ _ (by decide))⟩

/-- The family is live, the acknowledgement of the mark is lost, and the retry is taken for a
replay: it is refused, and the family is revoked. -/
theorem retry_revokes : ∃ (g : FailedRotation Sample.deps) (h : Retry Sample.state g),
    ¬ g.w.Revoked Sample.deps g.old.familyId ∧ ¬ h.response.Rotated Sample.state ∧
      h.done.Revoked Sample.deps g.old.familyId := by
  obtain ⟨r, hran⟩ := Sample.replay_ran
  have hworlds := Sample.replay_worlds.mono fun w e w' _ hanswer =>
    (⟨w, .refl _ _ _ _, hanswer⟩ : AmongOthers Sample.deps (serial 1) (serial 2) w e w')
  have hrenewing : Renewing Sample.deps Sample.state Sample.marked.id Sample.marked.familyId
      Sample.unacknowledged.after (.refresh ⟨none, none⟩ (some Sample.again)) Sample.replay r
      Sample.revoked := ⟨.refresh Sample.again_presents (accepts_live Sample.live _ _), hran, hworlds⟩
  have hfine : Faultless Sample.replay := by simp [Faultless, Sample.replay, failed]
  have hused : Standing Sample.deps Sample.unacknowledged.after Sample.marked 3 :=
    ⟨World.put_read_same _ _ _, by decide⟩
  have hnone : Sample.unrotated.read (markerKey Sample.deps (serial 2)) = none :=
    World.put_read_other _ _ (markerKey_ne_rowKey _ _ _)
  refine ⟨Sample.unacknowledged, ⟨_, .refl _ _ _ _, _, _, r, _, hrenewing, hfine⟩, ?_, ?_, ?_⟩
  · rintro ⟨m, rev, hread⟩
    exact absurd (hnone.symm.trans hread) (by simp)
  · exact hrenewing.dead hfine hused (.inl rfl)
  · exact ⟨⟨Sample.moment⟩, _, World.put_read_same _ _ _⟩

end Sample

end SvcAuth
