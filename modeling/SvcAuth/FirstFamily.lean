import SvcAuth.Undisturbed
import SvcAuth.HandedOut

/-! The life of one family, in every deployment whose refresh tokens live at all: a login,
a rotation, and the token that was rotated presented once more. -/
namespace SvcAuth
open Interleave RevisionBucket RefreshTokenStore

variable (D : Deps) (S : AppState) {G : Assumption} (clock : ℕ)

/-- A UUID by its number. -/
def serial (n : ℕ) : Uuid := ⟨BitVec.ofNat 128 n⟩

/-- A login that opens family 2 with token 1. -/
def firstLogin : Opening := ⟨"user@example.com", clock, serial 1, clock, serial 2, clock⟩

def firstHeld : Held := ⟨(firstLogin clock).row, 1⟩

/-- The rotation of token 1 to token 4. -/
def firstDraft : Draft := .begun (firstHeld clock) rfl "user@example.com" (serial 4) clock

/-- Token 1 as it is read after its rotation. -/
def usedHeld : Held := ⟨(firstDraft clock).replaced clock, 3⟩

def secondHeld : Held := ⟨(firstDraft clock).successor, 2⟩

/-- The refresh token with this number, signed for the family. -/
def numberedJwt (n : ℕ) : String := S.jwt.refreshToken D "user@example.com" (serial n) clock

def openingLog : List Event := loginLog D 0 "id-token" (firstLogin clock) (serial 3)

def rotationLog : List Event :=
  draftLog D 1 (numberedJwt D S clock 1) (firstDraft clock) clock (.ok none) ++
    (commitLog D 1 (firstDraft clock) clock (.ok ()) ++ [.call 1 .nowV7 (serial 5)])

def reuseLog : List Event :=
  replayLog D 2 (numberedJwt D S clock 1) (usedHeld clock) (serial 6) clock (serial 7)

/-- After the login. -/
def opened : PhaseState :=
  (Config.initial (.initial clock)).move (((((World.initial clock).mint (serial 1)).mint
    (serial 2)).put (rowKey D (serial 1)) (.token (firstLogin clock).row)).mint (serial 3)) 0
    (.done ⟨.token, none⟩ (.opened (firstLogin clock)) (serial 3))

/-- After the rotation. -/
def rotated : PhaseState :=
  (opened D clock).move ((((opened D clock).world.mint (serial 4)).commit D (firstDraft clock)).mint
    (serial 5)) 1 (.done ⟨.refresh, none⟩ (.granted (firstDraft clock)) (serial 5))

/-- After token 1 was presented once more. -/
def reused : PhaseState :=
  (rotated D clock).move ((((rotated D clock).world.mint (serial 6)).put (markerKey D (serial 2))
    (.revoked ⟨clock⟩)).mint (serial 7)) 2
    (.done ⟨.refresh, none⟩ (.reuse (usedHeld clock)) (serial 7))

theorem opened_first : (opened D clock).world.read (rowKey D (serial 1)) =
    some (.token (firstHeld clock).row, 1) :=
  World.put_read_same _ _ _

theorem opened_other {k : KvKey} (h : k ≠ rowKey D (serial 1)) :
    (opened D clock).world.read k = none := by
  simp [opened, World.put_read_other _ _ h]

theorem rotated_used : (rotated D clock).world.read (rowKey D (serial 1)) =
    some (.token (usedHeld clock).row, 3) :=
  World.put_read_same _ _ _

theorem rotated_second : (rotated D clock).world.read (rowKey D (serial 4)) =
    some (.token (secondHeld clock).row, 2) := by
  have hother : rowKey D (serial 4) ≠ rowKey D (serial 1) := by simp +decide
  exact (World.put_read_other _ _ hother).trans (World.put_read_same _ _ _)

theorem rotated_marker : (rotated D clock).world.read (markerKey D (serial 2)) = none :=
  (World.put_read_other _ _ (markerKey_ne_rowKey D _ _)).trans
    ((World.put_read_other _ _ (markerKey_ne_rowKey D _ _)).trans
      (opened_other D clock (markerKey_ne_rowKey D _ _)))

theorem opened_minted : (opened D clock).world.minted = [serial 3, serial 2, serial 1] := rfl

theorem opened_idle {t : ℕ} (h : 0 < t) : (opened D clock).threads t = none :=
  Config.move_other _ _ _ (by omega)

theorem rotated_idle {t : ℕ} (h : 1 < t) : (rotated D clock).threads t = none :=
  (Config.move_other _ _ _ (by omega)).trans (opened_idle D clock (by omega))

theorem reused_idle {t : ℕ} (h : 2 < t) : (reused D clock).threads t = none :=
  (Config.move_other _ _ _ (by omega)).trans (rotated_idle D clock (by omega))

theorem rotated_minted : (rotated D clock).world.minted =
    [serial 5, serial 4, serial 3, serial 2, serial 1] := rfl

theorem reused_minted : (reused D clock).world.minted =
    [serial 7, serial 6, serial 5, serial 4, serial 3, serial 2, serial 1] := rfl

theorem reused_second : (reused D clock).world.read (rowKey D (serial 4)) =
    some (.token (secondHeld clock).row, 2) :=
  (World.put_read_other _ _ (rowKey_ne_markerKey D _ _)).trans (rotated_second D clock)

theorem reused_marker : (reused D clock).world.read (markerKey D (serial 2)) =
    some (.revoked ⟨clock⟩, 4) :=
  World.put_read_same _ _ _

theorem opened_cells {k : KvKey} {cell : Cell Entry}
    (h : (opened D clock).world.bucket.cells k = some cell) : cell.written = clock := by
  rcases Bucket.put_cases h with ⟨-, rfl⟩ | ⟨-, h⟩
  · rfl
  · cases h

theorem rotated_cells {k : KvKey} {cell : Cell Entry}
    (h : (rotated D clock).world.bucket.cells k = some cell) : cell.written = clock := by
  rcases Bucket.put_cases h with ⟨-, rfl⟩ | ⟨-, h⟩
  · rfl
  · rcases Bucket.put_cases h with ⟨-, rfl⟩ | ⟨-, h⟩
    · rfl
    · exact opened_cells D clock h

theorem reused_cells {k : KvKey} {cell : Cell Entry}
    (h : (reused D clock).world.bucket.cells k = some cell) : cell.written = clock := by
  rcases Bucket.put_cases h with ⟨-, rfl⟩ | ⟨-, h⟩
  · rfl
  · exact rotated_cells D clock h

theorem opening_run (hG : Permits S G) :
    PhaseRun D S G clock (openingLog D clock) (opened D clock) :=
  login_served hG rfl (by decide) (by decide) (by simp) (by simp +decide) (by simp +decide)

theorem opened_sent : SentToClient S ((opened D clock).result (machine D S))
    (numberedJwt D S clock 1) :=
  sent_by_done (Config.move_same _ _ _ _) rfl

theorem rotated_sent_first : SentToClient S ((rotated D clock).result (machine D S))
    (numberedJwt D S clock 1) :=
  sent_by_done ((Config.move_other _ _ _ (by decide)).trans (Config.move_same _ _ _ _)) rfl

theorem rotated_sent_second : SentToClient S ((rotated D clock).result (machine D S))
    (numberedJwt D S clock 4) :=
  sent_by_done (Config.move_same _ _ _ _) rfl

/-- Request 1 has drafted its rotation. -/
def begun : PhaseState :=
  (opened D clock).move ((opened D clock).world.mint (serial 4)) 1
    (.store ⟨.refresh, none⟩ (firstDraft clock))

theorem begun_segment (hG : Permits S G) (hlive : ¬ S.jwt.RefreshLapsed clock clock) :
    PhaseSegment D S G (opened D clock)
      (draftLog D 1 (numberedJwt D S clock 1) (firstDraft clock) clock (.ok none))
      (begun D clock) := by
  have hmarker : (opened D clock).world.read (markerKey D (serial 2)) = none :=
    opened_other D clock (markerKey_ne_rowKey D _ _)
  exact rotation_drafted (t := 1) (x := firstHeld clock) hG rfl (opened_idle D clock (by decide))
    hlive (opened_sent D S clock) (opened_first D clock) (hmarker ▸ Answers.get _ _)
    (fun _ => hG.call _ _ _ _ _ rfl) rfl
    (show serial 4 ∉ (opened D clock).world.minted by simp +decide [opened_minted])

theorem rotation_segment (hG : Permits S G) (hlive : ¬ S.jwt.RefreshLapsed clock clock) :
    PhaseSegment D S G (opened D clock) (rotationLog D S clock) (rotated D clock) := by
  have hcommit := draft_served (c := opened D clock) (t := 1) (x := firstDraft clock)
    (w := (opened D clock).world.mint (serial 4)) hG (show serial 4 ≠ serial 1 by decide)
    (opened_first D clock)
    (show serial 5 ∉ serial 4 :: (opened D clock).world.minted by simp +decide [opened_minted])
  exact Trace.trans (begun_segment D S clock hG hlive) hcommit

theorem opening_arrived : Arrived (openingLog D clock) 0 .login :=
  ⟨_, .head _, rfl⟩

theorem opening_placed : Placed D (openingLog D clock) 0 (firstLogin clock).row :=
  loginLog_placed _ _ _ _

theorem rotation_arrived : Arrived (rotationLog D S clock) 1 .rotation :=
  ⟨_, .head _, rfl⟩

theorem rotation_found : Found D (rotationLog D S clock) 1 (firstHeld clock) :=
  List.mem_append_left _ (draftLog_found _ _ _ _ _)

/-- The clock readings of request `t`. -/
def readings (t : ℕ) (ls : List Event) : List ℕ :=
  ls.filterMap fun
    | .call u .utcNow now => if u = t then some now else none
    | _ => none

theorem mem_readings {t now : ℕ} {ls : List Event} (h : .call t .utcNow now ∈ ls) :
    now ∈ readings t ls :=
  List.mem_filterMap.mpr ⟨_, h, if_pos rfl⟩

theorem rotation_arrives : rotationLog D S clock =
    .arrive 1 (.presenting (numberedJwt D S clock 1)) :: (rotationLog D S clock).tail := rfl

theorem rotation_rotates (hlive : ¬ S.jwt.RefreshLapsed clock clock) :
    Rotates D S (openingLog D clock ++ rotationLog D S clock) 1
      (.presenting (numberedJwt D S clock 1)) (numberedJwt D S clock 1) (serial 1) := by
  refine ⟨presenting_refreshJwt (JwtService.refreshToken_ne_empty _ _ _ _ _), .inl ⟨_, _, rfl⟩,
    fun now hl => ?_⟩
  obtain rfl : now = clock := List.eq_of_mem_replicate (n := 5) (mem_readings hl)
  exact ⟨_, JwtService.refreshVerdict_live hlive _ _, D.parseStr_toString _⟩

theorem rotation_handed_out : HandedOut D (openingLog D clock) (serial 2) (serial 1) :=
  .inl ⟨0, _, opening_arrived D clock, opening_placed D clock, rfl, rfl⟩

theorem rotation_committed :
    Committed D (rotationLog D S clock) 1 ((firstDraft clock).replaced clock) :=
  (commitLog_committed _ _ _).mono fun _ hl =>
    List.mem_append_right _ (List.mem_append_left _ hl)

theorem rotation_run (hG : Permits S G) (hlive : ¬ S.jwt.RefreshLapsed clock clock) :
    PhaseRun D S G clock (openingLog D clock ++ rotationLog D S clock) (rotated D clock) :=
  Trace.trans (opening_run D S clock hG) (rotation_segment D S clock hG hlive)

theorem reuse_segment (hG : Permits S G) (hlive : ¬ S.jwt.RefreshLapsed clock clock) :
    PhaseSegment D S G (rotated D clock) (reuseLog D S clock) (reused D clock) :=
  replay_revokes (x := usedHeld clock) hG (by simp [usedHeld, Draft.replaced])
    (rotated_idle D clock (by decide)) hlive (rotated_sent_first D S clock) (rotated_used D clock)
    (rotated_marker D clock)
    (show serial 6 ∉ (rotated D clock).world.minted by simp +decide [rotated_minted])
    (show serial 7 ∉ serial 6 :: (rotated D clock).world.minted by simp +decide [rotated_minted])

theorem reused_sent_second : SentToClient S ((reused D clock).result (machine D S))
    (numberedJwt D S clock 4) :=
  sent_by_done ((Config.move_other _ _ _ (by decide)).trans (Config.move_same _ _ _ _)) rfl

theorem reuse_arrived : Arrived (reuseLog D S clock) 2 .rotation :=
  ⟨_, .head _, rfl⟩

theorem reuse_found : Found D (reuseLog D S clock) 2 (usedHeld clock) :=
  List.mem_append_left _ (List.mem_append_left _ (lookupLog_found _ _ _ _ _))

/-- The log up to the marker, the marker, and the rest. -/
theorem reuse_split : openingLog D clock ++ rotationLog D S clock ++ reuseLog D S clock =
    openingLog D clock ++ rotationLog D S clock ++
      (lookupLog D 2 (numberedJwt D S clock 1) (usedHeld clock) clock (.ok none) ++
        signLog 2 (serial 6) clock ++ [.call 2 .utcNow clock]) ++
      .call 2 (.put (markerKey D (serial 2)) (.revoked ⟨clock⟩)) (.ok ()) ::
        [.call 2 .nowV7 (serial 7)] := by
  simp [reuseLog, replayLog, revokeLog, usedHeld, Draft.replaced, firstDraft, Draft.begun, firstHeld,
    firstLogin, Opening.row]

theorem reuse_run (hG : Permits S G) (hlive : ¬ S.jwt.RefreshLapsed clock clock) :
    PhaseRun D S G clock (openingLog D clock ++ rotationLog D S clock ++ reuseLog D S clock)
      (reused D clock) :=
  Trace.trans (rotation_run D S clock hG hlive) (reuse_segment D S clock hG hlive)

/-- Token 4 is presented in the revoked family. -/
def refusalLog : List Event :=
  lookupLog D 3 (numberedJwt D S clock 4) (secondHeld clock) clock
    (.ok (some (.revoked ⟨clock⟩, 4))) ++ [.call 3 .nowV7 (serial 9)]

def refused : PhaseState :=
  (reused D clock).move ((reused D clock).world.mint (serial 9)) 3
    (.done ⟨.refresh, none⟩ (.revoked (secondHeld clock)) (serial 9))

theorem refusal_segment (hG : Permits S G) (hlive : ¬ S.jwt.RefreshLapsed clock clock) :
    PhaseSegment D S G (reused D clock) (refusalLog D S clock) (refused D clock) :=
  revoked_refused (x := secondHeld clock) hG (reused_idle D clock (by decide)) hlive
    (reused_sent_second D S clock) (reused_second D clock) (reused_marker D clock)
    (show serial 9 ∉ serial 7 :: serial 6 :: (rotated D clock).world.minted by
      simp +decide [rotated_minted])

/-- The rotation of token 4 to token 8. -/
def secondDraft : Draft := .begun (secondHeld clock) rfl "user@example.com" (serial 8) clock

/-- Request 2 comes as far as its commit, then request 3 presents token 1 once more. -/
def crossingLog : List Event :=
  draftLog D 2 (numberedJwt D S clock 4) (secondDraft clock) clock (.ok none) ++
    replayLog D 3 (numberedJwt D S clock 1) (usedHeld clock) (serial 6) clock (serial 7)

/-- After request 2 has looked the revocation up. -/
def drafted : PhaseState :=
  (rotated D clock).move ((rotated D clock).world.mint (serial 8)) 2
    (.store ⟨.refresh, none⟩ (secondDraft clock))

/-- After the family has been revoked between lookup and commit of request 2. -/
def crossed : PhaseState :=
  (drafted D clock).move ((((drafted D clock).world.mint (serial 6)).put (markerKey D (serial 2))
    (.revoked ⟨clock⟩)).mint (serial 7)) 3
    (.done ⟨.refresh, none⟩ (.reuse (usedHeld clock)) (serial 7))

theorem crossed_waits : (crossed D clock).threads 2 =
    some (.store ⟨.refresh, none⟩ (secondDraft clock)) :=
  (Config.move_other _ _ _ (by decide)).trans (Config.move_same _ _ _ _)

theorem crossed_second : (crossed D clock).world.read (rowKey D (serial 4)) =
    some (.token (secondHeld clock).row, 2) :=
  (World.put_read_other _ _ (rowKey_ne_markerKey D _ _)).trans (rotated_second D clock)

theorem crossed_marker : (crossed D clock).world.read (markerKey D (serial 2)) =
    some (.revoked ⟨clock⟩, 4) :=
  World.put_read_same _ _ _

theorem crossed_cells {k : KvKey} {cell : Cell Entry}
    (h : (crossed D clock).world.bucket.cells k = some cell) : cell.written = clock :=
  reused_cells D clock h

theorem crossed_minted : (crossed D clock).world.minted =
    [serial 7, serial 6, serial 8, serial 5, serial 4, serial 3, serial 2, serial 1] := rfl

theorem crossed_idle {t : ℕ} (h : 3 < t) : (crossed D clock).threads t = none :=
  (Config.move_other _ _ _ (by omega)).trans
    ((Config.move_other _ _ _ (by omega)).trans (rotated_idle D clock (by omega)))

theorem crossing_segment (hG : Permits S G) (hlive : ¬ S.jwt.RefreshLapsed clock clock) :
    PhaseSegment D S G (rotated D clock) (crossingLog D S clock) (crossed D clock) := by
  have hdraft := rotation_drafted (t := 2) (x := secondHeld clock) hG rfl
    (rotated_idle D clock (by decide)) hlive (rotated_sent_second D S clock)
    (rotated_second D clock) ((rotated_marker D clock) ▸ Answers.get _ _)
    (fun _ => hG.call _ _ _ _ _ rfl) rfl
    (show serial 8 ∉ (rotated D clock).world.minted by simp +decide [rotated_minted])
  have hreplay := replay_revokes (c := drafted D clock) (t := 3) (x := usedHeld clock) hG
    (by simp [usedHeld, Draft.replaced])
    ((Config.move_other _ _ _ (by decide)).trans (rotated_idle D clock (by decide))) hlive
    (sent_by_done ((Config.move_other _ _ _ (by decide)).trans
      ((Config.move_other _ _ _ (by decide)).trans (Config.move_same _ _ _ _))) rfl)
    (rotated_used D clock) (rotated_marker D clock)
    (show serial 6 ∉ serial 8 :: (rotated D clock).world.minted by simp +decide [rotated_minted])
    (show serial 7 ∉ serial 6 :: serial 8 :: (rotated D clock).world.minted by
      simp +decide [rotated_minted])
  exact Trace.trans hdraft hreplay

theorem crossing_split : openingLog D clock ++ rotationLog D S clock ++ crossingLog D S clock =
    openingLog D clock ++ rotationLog D S clock ++
      (draftLog D 2 (numberedJwt D S clock 4) (secondDraft clock) clock (.ok none) ++
        (lookupLog D 3 (numberedJwt D S clock 1) (usedHeld clock) clock (.ok none) ++
          signLog 3 (serial 6) clock ++ [.call 3 .utcNow clock])) ++
      .call 3 (.put (markerKey D (serial 2)) (.revoked ⟨clock⟩)) (.ok ()) ::
        [.call 3 .nowV7 (serial 7)] := by
  simp [crossingLog, replayLog, revokeLog, usedHeld, Draft.replaced, firstDraft, Draft.begun,
    firstHeld, firstLogin, Opening.row]

theorem crossing_run (hG : Permits S G) (hlive : ¬ S.jwt.RefreshLapsed clock clock) :
    PhaseRun D S G clock (openingLog D clock ++ rotationLog D S clock ++ crossingLog D S clock)
      (crossed D clock) :=
  Trace.trans (rotation_run D S clock hG hlive) (crossing_segment D S clock hG hlive)

/-- Request 1 has drafted its rotation when time passes; it then fails to commit. -/
def lapseLog (e : Passage) : List Event :=
  draftLog D 1 (numberedJwt D S clock 1) (firstDraft clock) clock (.ok none) ++ [.env e] ++
    commitLog D 1 (firstDraft clock) (clock + e.seconds) (.error .RevisionConflict) ++
    revokeLog D 1 (serial 2) (clock + e.seconds) (serial 5)

/-- After time has passed over a drafted rotation. -/
def lapsed (e : Passage) : PhaseState := ⟨(begun D clock).world.pass e, (begun D clock).threads⟩

theorem lapsed_waits (e : Passage) : (lapsed D clock e).threads 1 =
    some (.store ⟨.refresh, none⟩ (firstDraft clock)) :=
  Config.move_same _ _ _ _

/-- If its row expires meanwhile, a rotation that nobody else disturbs revokes its family. -/
theorem lapse_run (hG : Permits S G) (hlive : ¬ S.jwt.RefreshLapsed clock clock) {e : Passage}
    (hgone : e.expired (rowKey D (serial 1)) = true)
    (hpass : ∀ responses, G (begun D clock).world responses (.env e)) :
    ∃ d, PhaseRun D S G clock (openingLog D clock ++ lapseLog D S clock e) d := by
  have hcommit := commit_refused (c := lapsed D clock e) (t := 1) (x := firstDraft clock)
    (w := (lapsed D clock e).world) (y := ⟨.refresh, none⟩) hG (show serial 4 ≠ serial 1 by decide)
    (World.pass_read_gone _ hgone)
  have hrevoked := family_revoked (D := D) (c := lapsed D clock e) (t := 1) (x := firstHeld clock)
    (w := (lapsed D clock e).world.put (rowKey D (serial 4)) (.token (firstDraft clock).successor))
    (p := .refresh) hG (show serial 5 ∉ serial 4 :: (opened D clock).world.minted by
      simp +decide [opened_minted])
  rw [Config.move_here (lapsed_waits D clock e)] at hcommit
  exact ⟨_, Trace.trans (opening_run D S clock hG) (Trace.trans (Trace.trans (Trace.trans
    (begun_segment D S clock hG hlive) (PhaseSegment.passage hpass)) hcommit) hrevoked)⟩

section Expiry
variable (e : Passage)

/-- Request 3 has found the row of token 4 in the revoked family. -/
def finding : PhaseState :=
  (reused D clock).move (reused D clock).world 3
    (.lookup ⟨.refresh, none⟩ "user@example.com" (secondHeld clock))

/-- The rotation of token 4 to token 8, begun when time has passed. -/
def lateDraft : Draft :=
  .begun (secondHeld clock) rfl "user@example.com" (serial 8) (clock + e.seconds)

/-- What request 3 does when time has passed: no marker is left, and no row to write back. -/
def lateLog : List Event :=
  signLog 3 (serial 8) (clock + e.seconds) ++
    commitLog D 3 (lateDraft clock e) (clock + e.seconds) (.error .RevisionConflict) ++
    revokeLog D 3 (serial 2) (clock + e.seconds) (serial 9)

def expiryLog : List Event :=
  findLog D 3 (numberedJwt D S clock 4) (secondHeld clock) clock ++ [.env e] ++
    .call 3 (.get (markerKey D (serial 2))) (.ok none) :: lateLog D clock e

/-- If marker and row expire between the two reads of a request, it revokes the family. -/
theorem expiry_segment (hG : Permits S G) (hlive : ¬ S.jwt.RefreshLapsed clock clock)
    (hgone : e.expired (markerKey D (serial 2)) = true)
    (hgone' : e.expired (rowKey D (serial 4)) = true)
    (hpass : ∀ responses, G (finding D clock).world responses (.env e)) :
    ∃ d, PhaseSegment D S G (reused D clock) (expiryLog D S clock e) d ∧
      d.threads 3 = some (.done ⟨.refresh, none⟩ (.reuse (secondHeld clock)) (serial 9)) := by
  let passed : PhaseState := ⟨(finding D clock).world.pass e, (finding D clock).threads⟩
  have hwaits : passed.threads 3 =
      some (.lookup ⟨.refresh, none⟩ "user@example.com" (secondHeld clock)) :=
    Config.move_same _ _ _ _
  have hfind := row_reached (t := 3) (x := secondHeld clock) hG (reused_idle D clock (by decide))
    hlive (reused_sent_second D S clock) (reused_second D clock)
  have hlook : Answers passed.world (.get (markerKey D (serial 2))) (.ok none) passed.world := by
    rw [← World.pass_read_gone (finding D clock).world hgone]
    exact .get _ _
  have hlooked : PhaseSegment D S G (passed.move passed.world 3
        (.lookup ⟨.refresh, none⟩ "user@example.com" (secondHeld clock)))
      [.call 3 (.get (markerKey D (serial 2))) (.ok none)]
      (passed.move passed.world 3 (.access ⟨.refresh, none⟩ "user@example.com" (secondHeld clock))) :=
    .answer rfl (if_neg Bool.false_ne_true) hlook (fun _ => hG.call _ _ _ _ _ rfl) (.nil _)
  rw [Config.move_here hwaits] at hlooked
  have hsigned : PhaseSegment D S G (passed.move passed.world 3
        (.access ⟨.refresh, none⟩ "user@example.com" (secondHeld clock)))
      (signLog 3 (serial 8) (clock + e.seconds)) (passed.move (passed.world.mint (serial 8)) 3
        (.store ⟨.refresh, none⟩ (lateDraft clock e))) := by
    refine tokens_signed (w := passed.world) hG ?_ (dif_pos rfl)
    show serial 8 ∉ (reused D clock).world.minted
    simp +decide [reused_minted]
  have hcommit := commit_refused (S := S) (c := passed) (t := 3) (x := lateDraft clock e)
    (w := passed.world.mint (serial 8)) (y := ⟨.refresh, none⟩) hG
    (show serial 8 ≠ serial 4 by decide) (World.pass_read_gone _ hgone')
  have hrevoked := family_revoked (D := D) (S := S) (c := passed) (t := 3) (x := secondHeld clock)
    (w := (passed.world.mint (serial 8)).put (rowKey D (serial 8))
      (.token (lateDraft clock e).successor))
    (p := .refresh) hG (show serial 9 ∉ serial 8 :: (reused D clock).world.minted by
      simp +decide [reused_minted])
  exact ⟨_, Trace.trans (Trace.trans hfind (PhaseSegment.passage hpass)) (Trace.trans hlooked
    (Trace.trans (Trace.trans hsigned hcommit) hrevoked)), Config.move_same _ _ _ _⟩

end Expiry

/-- The requests that arrived. -/
def arrivals (ls : List Event) : List (ℕ × Request) :=
  ls.filterMap fun
    | .arrive t q => some (t, q)
    | _ => none

theorem mem_arrivals {t : ℕ} {q : Request} {ls : List Event} (h : .arrive t q ∈ ls) :
    (t, q) ∈ arrivals ls :=
  List.mem_filterMap.mpr ⟨_, h, rfl⟩

theorem lapse_arrived {t : ℕ} {κ : Kind} {e : Passage}
    (h : Arrived (openingLog D clock ++ lapseLog D S clock e) t κ) :
    (t = 0 ∧ κ = .login) ∨ (t = 1 ∧ κ = .rotation) := by
  obtain ⟨q, hq, rfl⟩ := h
  have hmem : (t, q) ∈ [(0, Request.loggingIn "id-token"),
    (1, Request.presenting (numberedJwt D S clock 1))] := mem_arrivals hq
  rcases List.mem_cons.mp hmem with heq | hmem
  · cases heq
    exact .inl ⟨rfl, rfl⟩
  · cases List.mem_singleton.mp hmem
    exact .inr ⟨rfl, rfl⟩

section Revival
variable (e₁ e₂ : Passage)

/-- Token 8 as it was stored, after the marker of its family. -/
def thirdHeld : Held := ⟨(secondDraft clock).successor, 5⟩

def thirdDraft (now : ℕ) : Draft := .begun (thirdHeld clock) rfl "user@example.com" (serial 10) now

/-- The family was revoked between lookup and commit of request 2, and time passed. -/
def paused : PhaseState := ⟨(crossed D clock).world.pass e₁, (crossed D clock).threads⟩

/-- Request 2 has committed after all. -/
def renewed : PhaseState :=
  (paused D clock e₁).move (((paused D clock e₁).world.commit D (secondDraft clock)).mint (serial 9))
    2 (.done ⟨.refresh, none⟩ (.granted (secondDraft clock)) (serial 9))

/-- More time has passed. -/
def forgotten : PhaseState :=
  ⟨(renewed D clock e₁).world.pass e₂, (renewed D clock e₁).threads⟩

/-- Token 8 has been rotated once more. -/
def revived : PhaseState :=
  (forgotten D clock e₁ e₂).move ((((forgotten D clock e₁ e₂).world.mint (serial 10)).commit D
    (thirdDraft clock (clock + e₁.seconds + e₂.seconds))).mint (serial 11)) 4
    (.done ⟨.refresh, none⟩ (.granted (thirdDraft clock (clock + e₁.seconds + e₂.seconds)))
      (serial 11))

def revivalLog : List Event :=
  [.env e₁] ++ (commitLog D 2 (secondDraft clock) (clock + e₁.seconds) (.ok ()) ++
    [.call 2 .nowV7 (serial 9)]) ++ [.env e₂] ++
    (draftLog D 4 (numberedJwt D S clock 8) (thirdDraft clock (clock + e₁.seconds + e₂.seconds))
      (clock + e₁.seconds + e₂.seconds) (.ok none) ++
    (commitLog D 4 (thirdDraft clock (clock + e₁.seconds + e₂.seconds))
      (clock + e₁.seconds + e₂.seconds) (.ok ()) ++ [.call 4 .nowV7 (serial 11)]))

/-- The two rows of the late commit carry its time, every other entry is from before. -/
theorem renewed_cells {k : KvKey} {cell : Cell Entry}
    (h : (renewed D clock e₁).world.bucket.cells k = some cell) :
    ((k = rowKey D (serial 4) ∨ k = rowKey D (serial 8)) ∧ cell.written = clock + e₁.seconds) ∨
      k ≠ rowKey D (serial 4) ∧ k ≠ rowKey D (serial 8) ∧
        (crossed D clock).world.bucket.cells k = some cell := by
  rcases Bucket.put_cases h with ⟨rfl, rfl⟩ | ⟨hne, h⟩
  · exact .inl ⟨.inl rfl, rfl⟩
  · rcases Bucket.put_cases h with ⟨rfl, rfl⟩ | ⟨hne', h⟩
    · exact .inl ⟨.inr rfl, rfl⟩
    · exact .inr ⟨hne, hne', (Bucket.drop_cells h).1⟩

theorem forgotten_third (hkept : e₂.expired (rowKey D (serial 8)) = false) :
    (forgotten D clock e₁ e₂).world.read (rowKey D (serial 8)) =
      some (.token (thirdHeld clock).row, 5) := by
  have hother : rowKey D (serial 8) ≠ rowKey D (serial 4) := by simp +decide
  exact (World.pass_read_kept _ hkept).trans
    ((World.put_read_other _ _ hother).trans (World.put_read_same _ _ _))

theorem forgotten_marker (hgone : e₂.expired (markerKey D (serial 2)) = true) :
    (forgotten D clock e₁ e₂).world.read (markerKey D (serial 2)) = none :=
  World.pass_read_gone _ hgone

theorem renewal_segment (hG : Permits S G)
    (hkept : e₁.expired (rowKey D (serial 4)) = false) :
    PhaseSegment D S G (paused D clock e₁)
      (commitLog D 2 (secondDraft clock) (clock + e₁.seconds) (.ok ()) ++ [.call 2 .nowV7 (serial 9)])
      (renewed D clock e₁) := by
  have hcommit := draft_served (c := paused D clock e₁) (t := 2) (x := secondDraft clock)
    (w := (paused D clock e₁).world) hG (show serial 8 ≠ serial 4 by decide)
    ((World.pass_read_kept _ hkept).trans (crossed_second D clock))
    (show serial 9 ∉ (crossed D clock).world.minted by simp +decide [crossed_minted])
  rwa [Config.move_here (show (paused D clock e₁).threads 2 = _ from crossed_waits D clock)]
    at hcommit

/-- A row that was stored after the marker is good again once the marker has expired. -/
theorem revival_segment (hG : Permits S G)
    (hlive : ¬ S.jwt.RefreshLapsed clock (clock + e₁.seconds + e₂.seconds))
    (hkept : e₁.expired (rowKey D (serial 4)) = false)
    (hpass : ∀ responses, G (crossed D clock).world responses (.env e₁))
    (hkept' : e₂.expired (rowKey D (serial 8)) = false)
    (hgone : e₂.expired (markerKey D (serial 2)) = true)
    (hpass' : ∀ responses, G (renewed D clock e₁).world responses (.env e₂)) :
    PhaseSegment D S G (crossed D clock) (revivalLog D S clock e₁ e₂) (revived D clock e₁ e₂) := by
  have hidle : (forgotten D clock e₁ e₂).threads 4 = none :=
    (Config.move_other _ _ _ (by decide)).trans
      (show (crossed D clock).threads 4 = none from crossed_idle D clock (by decide))
  have hsent : SentToClient S ((forgotten D clock e₁ e₂).result (machine D S))
      (numberedJwt D S clock 8) :=
    sent_by_done (t := 2) (y := ⟨.refresh, none⟩) (o := .granted (secondDraft clock))
      (Config.move_same _ _ _ _) rfl
  have hdraft := rotation_drafted (t := 4) (x := thirdHeld clock) hG rfl hidle hlive hsent
    (forgotten_third D clock e₁ e₂ hkept')
    ((forgotten_marker D clock e₁ e₂ hgone) ▸ Answers.get _ _) (fun _ => hG.call _ _ _ _ _ rfl) rfl
    (show serial 10 ∉ serial 9 :: (crossed D clock).world.minted by
      simp +decide [crossed_minted])
  have hcommit := draft_served (c := forgotten D clock e₁ e₂) (t := 4)
    (x := thirdDraft clock (clock + e₁.seconds + e₂.seconds))
    (w := (forgotten D clock e₁ e₂).world.mint (serial 10)) hG (show serial 10 ≠ serial 8 by decide)
    (forgotten_third D clock e₁ e₂ hkept')
    (show serial 11 ∉ serial 10 :: serial 9 :: (crossed D clock).world.minted by
      simp +decide [crossed_minted])
  have hrenewal := renewal_segment D S clock e₁ hG hkept
  exact Trace.trans (Trace.trans (Trace.trans (PhaseSegment.passage hpass) hrenewal)
    (PhaseSegment.passage hpass')) (Trace.trans hdraft hcommit)

end Revival

end SvcAuth
