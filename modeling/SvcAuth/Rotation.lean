import SvcAuth.RefreshStore

/-! The one rotation primitive behind both refresh paths. -/
namespace SvcAuth
open Interleave RefreshTokenStore

inductive RotationError
  | Reuse (familyId : Uuid)
  | Store (e : StoreError)
  deriving DecidableEq, Repr

/-- A failed revocation is logged and changes nothing. -/
def rotate (D : Deps) (old : RefreshToken) (revision : Revision) (new : RefreshToken) :
    Action (Except RotationError Unit) := do
  if old.usedAt.isSome then
    let _ ← revokeFamily D old.familyId
    return .error (.Reuse old.familyId)
  else
    match ← store D new with
    | .error e => return .error (.Store e)
    | .ok () =>
      match ← markUsed D old new.id revision with
      | .ok () => return .ok ()
      | .error (.Conflict _) =>
        let _ ← revokeFamily D old.familyId
        return .error (.Reuse old.familyId)
      | .error e => return .error (.Store e)

section Runs
variable {D : Deps} {old new : RefreshToken} {revision : Revision} {tr : List Calls.Event}
  {r : Except RotationError Unit}

/-- Some call of the trace wrote the old row back, over the revision it named. -/
def WroteBack (D : Deps) (old : RefreshToken) (tr : List Calls.Event) : Prop :=
  ∃ v rev, (⟨.updateIf (rowKey D old.id) v rev, .ok ()⟩ : Calls.Event) ∈ tr

/-- The call writes under a revision check. -/
def Op.checks : Op → Bool
  | .updateIf _ _ _ => true
  | _ => false

/-- The store acknowledged a revision-checked write. -/
def Acked (tr : List Calls.Event) : Prop :=
  ∃ k v rev, (⟨.updateIf k v rev, .ok ()⟩ : Calls.Event) ∈ tr

theorem not_acked_nil : ¬ Acked [] := by
  simp [Acked]

theorem acked_other {e : Calls.Event} (h : ∀ k v rev, ⟨.updateIf k v rev, .ok ()⟩ ≠ e) :
    Acked (e :: tr) ↔ Acked tr := by
  constructor
  · rintro ⟨k, v, rev, hv⟩
    rcases List.mem_cons.mp hv with heq | hv
    · exact absurd heq (h k v rev)
    · exact ⟨k, v, rev, hv⟩
  · rintro ⟨k, v, rev, hv⟩
    exact ⟨k, v, rev, .tail _ hv⟩

theorem acked_call {o : Op} {reply : o.Reply} (h : o.checks = false) :
    Acked (⟨o, reply⟩ :: tr) ↔ Acked tr := by
  refine acked_other fun k v rev heq => ?_
  cases heq
  cases h

theorem acked_append {tr' : List Calls.Event} : Acked (tr ++ tr') ↔ Acked tr ∨ Acked tr' := by
  constructor
  · rintro ⟨k, v, rev, hv⟩
    rcases List.mem_append.mp hv with hv | hv
    · exact .inl ⟨k, v, rev, hv⟩
    · exact .inr ⟨k, v, rev, hv⟩
  · rintro (⟨k, v, rev, hv⟩ | ⟨k, v, rev, hv⟩)
    · exact ⟨k, v, rev, List.mem_append_left _ hv⟩
    · exact ⟨k, v, rev, List.mem_append_right _ hv⟩

theorem not_acked (h : ∀ e ∈ tr, e.1.checks = false) : ¬ Acked tr := by
  rintro ⟨k, v, rev, hv⟩
  exact Bool.false_ne_true (h _ hv).symm

theorem WroteBack.acked (h : WroteBack D old tr) : Acked tr := by
  obtain ⟨v, rev, hv⟩ := h
  exact ⟨_, v, rev, hv⟩

/-- The calls of a rotation, in order, and what it returns. -/
inductive RotateCalls (D : Deps) (old : RefreshToken) (revision : Revision) (new : RefreshToken) :
    List Calls.Event → Except RotationError Unit → Prop
  | reused {now : ℕ} {reply : Except FabricError Unit} (used : old.usedAt.isSome) :
      RotateCalls D old revision new
        [⟨.utcNow, now⟩, ⟨.put (markerKey D old.familyId) (.revoked ⟨now⟩), reply⟩]
        (.error (.Reuse old.familyId))
  | unstored {e : FabricError} (unused : ¬ old.usedAt.isSome) :
      RotateCalls D old revision new [⟨.put (rowKey D new.id) (.token new), .error e⟩]
        (.error (.Store (.Kv e)))
  | unmarked {now : ℕ} {e : FabricError} (unused : ¬ old.usedAt.isSome)
      (other : e ≠ .RevisionConflict) :
      RotateCalls D old revision new
        [⟨.put (rowKey D new.id) (.token new), .ok ()⟩, ⟨.utcNow, now⟩,
          ⟨.updateIf (rowKey D old.id)
            (.token { old with usedAt := some now, replacedBy := some new.id }) revision, .error e⟩]
        (.error (.Store (.Kv e)))
  | overtaken {now stamp : ℕ} {reply : Except FabricError Unit} (unused : ¬ old.usedAt.isSome) :
      RotateCalls D old revision new
        [⟨.put (rowKey D new.id) (.token new), .ok ()⟩, ⟨.utcNow, now⟩,
          ⟨.updateIf (rowKey D old.id)
            (.token { old with usedAt := some now, replacedBy := some new.id }) revision,
            .error .RevisionConflict⟩,
          ⟨.utcNow, stamp⟩, ⟨.put (markerKey D old.familyId) (.revoked ⟨stamp⟩), reply⟩]
        (.error (.Reuse old.familyId))
  | marked {now : ℕ} (unused : ¬ old.usedAt.isSome) :
      RotateCalls D old revision new
        [⟨.put (rowKey D new.id) (.token new), .ok ()⟩, ⟨.utcNow, now⟩,
          ⟨.updateIf (rowKey D old.id)
            (.token { old with usedAt := some now, replacedBy := some new.id }) revision, .ok ()⟩]
        (.ok ())

theorem rotate_used (used : old.usedAt.isSome) : rotate D old revision new =
    .call .utcNow fun now => .call (.put (markerKey D old.familyId) (.revoked ⟨now⟩)) fun _ =>
      .ret (.error (.Reuse old.familyId)) := by
  rw [rotate, if_pos used, revokeFamily_bind]
  rfl

theorem rotate_unused (unused : ¬ old.usedAt.isSome) : rotate D old revision new =
    .call (.put (rowKey D new.id) (.token new)) fun
      | .error e => .ret (.error (.Store (.Kv e)))
      | .ok () => .call .utcNow fun now =>
        .call (.updateIf (rowKey D old.id)
          (.token { old with usedAt := some now, replacedBy := some new.id }) revision) fun
          | .ok () => .ret (.ok ())
          | .error .RevisionConflict => .call .utcNow fun stamp =>
            .call (.put (markerKey D old.familyId) (.revoked ⟨stamp⟩)) fun _ =>
              .ret (.error (.Reuse old.familyId))
          | .error e => .ret (.error (.Store (.Kv e))) := by
  rw [rotate, if_neg unused, store_bind]
  refine call_congr fun stored => ?_
  cases stored with
  | error e => rfl
  | ok u =>
    simp only [Except.mapError]
    rw [markUsed_bind]
    refine call_congr fun now => call_congr fun marked => ?_
    cases marked with
    | ok u => rfl
    | error e =>
      cases e with
      | RevisionConflict =>
        simp only [markAnswer]
        rw [revokeFamily_bind]
        rfl
      | Decode => rfl
      | Unavailable => rfl

theorem rotate_ran (h : Prog.Ran (rotate D old revision new) tr r) :
    RotateCalls D old revision new tr r := by
  by_cases hused : old.usedAt.isSome
  · rw [rotate_used hused] at h
    obtain ⟨now, rest, rfl, h₁⟩ := Prog.ran_call.mp h
    obtain ⟨reply, rest, rfl, h₂⟩ := Prog.ran_call.mp h₁
    obtain ⟨rfl, rfl⟩ := Prog.ran_ret.mp h₂
    exact .reused hused
  · rw [rotate_unused hused] at h
    obtain ⟨stored, rest, rfl, h₁⟩ := Prog.ran_call.mp h
    cases stored with
    | error e =>
      obtain ⟨rfl, rfl⟩ := Prog.ran_ret.mp h₁
      exact .unstored hused
    | ok u =>
      obtain ⟨now, rest, rfl, h₂⟩ := Prog.ran_call.mp h₁
      obtain ⟨marked, rest, rfl, h₃⟩ := Prog.ran_call.mp h₂
      cases marked with
      | ok u =>
        obtain ⟨rfl, rfl⟩ := Prog.ran_ret.mp h₃
        exact .marked hused
      | error e =>
        cases e with
        | RevisionConflict =>
          obtain ⟨stamp, rest, rfl, h₄⟩ := Prog.ran_call.mp h₃
          obtain ⟨reply, rest, rfl, h₅⟩ := Prog.ran_call.mp h₄
          obtain ⟨rfl, rfl⟩ := Prog.ran_ret.mp h₅
          exact .overtaken hused
        | Decode =>
          obtain ⟨rfl, rfl⟩ := Prog.ran_ret.mp h₃
          exact .unmarked hused nofun
        | Unavailable =>
          obtain ⟨rfl, rfl⟩ := Prog.ran_ret.mp h₃
          exact .unmarked hused nofun

theorem RotateCalls.ran (h : RotateCalls D old revision new tr r) :
    Prog.Ran (rotate D old revision new) tr r := by
  cases h with
  | reused used =>
    rw [rotate_used used]
    exact .call (.call (.ret _))
  | unstored unused =>
    rw [rotate_unused unused]
    exact .call (.ret _)
  | @unmarked now e unused other =>
    rw [rotate_unused unused]
    cases e with
    | RevisionConflict => exact absurd rfl other
    | Decode => exact .call (.call (.call (.ret _)))
    | Unavailable => exact .call (.call (.call (.ret _)))
  | overtaken unused =>
    rw [rotate_unused unused]
    exact .call (.call (.call (.call (.call (.ret _)))))
  | marked unused =>
    rw [rotate_unused unused]
    exact .call (.call (.call (.ret _)))

theorem rotate_cases (h : RotateCalls D old revision new tr r) :
    (r = .ok () ∧ WroteBack D old tr) ∨ (r ≠ .ok () ∧ ¬ Acked tr) := by
  have hrefused : ∀ {k v rev e rest}, ¬ Acked rest →
      ¬ Acked (⟨.updateIf k v rev, .error e⟩ :: rest) := by
    intro k v rev e rest hrest
    rwa [acked_other (fun _ _ _ heq => by cases heq)]
  cases h with
  | marked => exact .inl ⟨rfl, _, _, .tail _ (.tail _ (.head _))⟩
  | reused => exact .inr ⟨nofun, not_acked (by simp [Op.checks])⟩
  | unstored => exact .inr ⟨nofun, not_acked (by simp [Op.checks])⟩
  | unmarked =>
    refine .inr ⟨nofun, (acked_call rfl).not.mpr ((acked_call rfl).not.mpr ?_)⟩
    exact hrefused not_acked_nil
  | overtaken =>
    refine .inr ⟨nofun, (acked_call rfl).not.mpr ((acked_call rfl).not.mpr ?_)⟩
    exact hrefused (not_acked (by simp [Op.checks]))

theorem rotate_ok_iff (h : Prog.Ran (rotate D old revision new) tr r) :
    r = .ok () ↔ WroteBack D old tr := by
  rcases rotate_cases (rotate_ran h) with ⟨hr, hw⟩ | ⟨hr, hnone⟩
  · exact ⟨fun _ => hw, fun _ => hr⟩
  · exact ⟨fun hok => absurd hok hr, fun hw => absurd hw.acked hnone⟩

end Runs

end SvcAuth
