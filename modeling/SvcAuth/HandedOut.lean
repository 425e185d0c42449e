import SvcAuth.PhaseRequests
import SvcAuth.PhaseResponses
import SvcAuth.StoreRows

/-! The refresh tokens a family has handed out. If clients present only what they were
sent, then whatever row a rotation looks up was handed out, under the email presented. -/
namespace SvcAuth
open Interleave RevisionBucket RefreshTokenStore

variable {D : Deps} {S : AppState} {G : Assumption} {clock : ℕ} {ls ms : List Event}
  {c d : PhaseState} {l : Event} {t u : ℕ}

/-- Token `id` was handed out in family `f`: stored by the login that opened it, or put
in the place of another by a rotation that was told so. -/
def HandedOut (D : Deps) (ls : List Event) (f id : Uuid) : Prop :=
  (∃ t row, Arrived ls t .login ∧ Placed D ls t row ∧ row.familyId = f ∧ row.id = id) ∨
    ∃ t row, Committed D ls t row ∧ row.familyId = f ∧ row.replacedBy = some id

/-- Token `a` was replaced by token `b`. -/
def Replaced (D : Deps) (ls : List Event) (a b : Uuid) : Prop :=
  ∃ t row, Committed D ls t row ∧ row.id = a ∧ row.replacedBy = some b

theorem Committed.mono (hsub : ls ⊆ ms) {row : RefreshToken} (h : Committed D ls t row) :
    Committed D ms t row :=
  h.imp fun _ hl => hsub hl

theorem HandedOut.mono (hsub : ls ⊆ ms) {f id : Uuid} (h : HandedOut D ls f id) :
    HandedOut D ms f id := by
  rcases h with ⟨t, row, ha, hp, hrow⟩ | ⟨t, row, hc, hrow⟩
  · exact .inl ⟨t, row, ha.mono hsub, hp.mono hsub, hrow⟩
  · exact .inr ⟨t, row, hc.mono hsub, hrow⟩

theorem Replaced.mono (hsub : ls ⊆ ms) {a b : Uuid} (h : Replaced D ls a b) : Replaced D ms a b := by
  obtain ⟨t, row, hc, hrow⟩ := h
  exact ⟨t, row, hc.mono hsub, hrow⟩

theorem HandedOut.placed (h : PhaseRun D S G clock ls c) {f id : Uuid} (hh : HandedOut D ls f id) :
    ∃ t row, Placed D ls t row ∧ row.id = id ∧ row.familyId = f := by
  rcases hh with ⟨t, row, -, hp, hf, hid⟩ | ⟨t, row, hc, hf, hrep⟩
  · exact ⟨t, row, hp, hid, hf⟩
  · obtain ⟨x, now, rfl, -, hp⟩ := hc.marked.rotation h
    exact ⟨t, x.successor, hp, Option.some.inj hrep, hf⟩

section Sent

/-- The row a granted rotation or a login hands out a token for. -/
def Outcome.row : Outcome → Option RefreshToken
  | .granted d => some d.successor
  | .opened p => some p.row
  | _ => none

theorem tokens_row {o : Outcome} {a b : String} (h : o.tokens D S = some (a, b)) :
    ∃ row signed refreshed, o.row = some row ∧ a = S.jwt.accessToken D row.email signed ∧
      b = S.jwt.refreshToken D row.email row.id refreshed := by
  cases o with
  | granted d => cases h; exact ⟨_, _, _, rfl, rfl, rfl⟩
  | opened p => cases h; exact ⟨_, _, _, rfl, rfl, rfl⟩
  | _ => cases h

theorem PhaseRun.outcome_row (h : PhaseRun D S G clock ls c) {ph : Phase} {o : Outcome}
    {row : RefreshToken} (ht : c.threads t = some ph) (ho : ph.outcome = some o)
    (hrow : o.row = some row) : Placed D ls t row ∧ HandedOut D ls row.familyId row.id := by
  obtain ⟨op, r, hdecides, hl⟩ := h.concluded ht ho
  cases o with
  | granted d =>
    cases hrow
    obtain ⟨now, heq⟩ := hdecides
    cases heq
    have hc : Committed D ls t (d.replaced now) := ⟨_, hl⟩
    obtain ⟨x, now', hx, -, hp⟩ := hc.marked.rotation h
    refine ⟨?_, .inr ⟨t, d.replaced now, hc, rfl, rfl⟩⟩
    exact h.draft_placed ht (granted_draft ho)
  | opened p =>
    cases hrow
    cases hdecides
    exact ⟨hl, .inl ⟨t, p.row, h.arrived ht (opened_kind ho), hl, rfl, rfl⟩⟩
  | _ => cases hrow

/-- A refresh token that was sent is one the service signed for a row it handed out. -/
theorem PhaseRun.sent_row (h : PhaseRun D S G clock ls c) {jwt : String} (hne : jwt ≠ "")
    (hsent : SentToClient S (c.result (machine D S)) jwt) :
    ∃ t row refreshed, Placed D ls t row ∧ HandedOut D ls row.familyId row.id ∧
      jwt = S.jwt.refreshToken D row.email row.id refreshed := by
  obtain ⟨t, r, hr, hset⟩ := hsent
  obtain ⟨ph, ht, hview⟩ := finished_iff.mp hr
  obtain ⟨o, a, ho, htokens⟩ := (sets_refresh hview hne).mp hset
  obtain ⟨row, signed, refreshed, hrow, -, hjwt⟩ := tokens_row htokens
  obtain ⟨hp, hh⟩ := h.outcome_row ht ho hrow
  exact ⟨t, row, refreshed, hp, hh, hjwt⟩

end Sent

section Presented

/-- A token that verified was handed out, for the email and the id it was signed for. -/
theorem Verified.handedOut (hG : ∀ w r l, G w r l → Unforged D S w r l)
    (h : PhaseRun D S G clock ls c) {email : String} {id : Uuid} (hv : Verified D S ls t email id) :
    ∃ u row, Placed D ls u row ∧ HandedOut D ls row.familyId row.id ∧ row.id = id ∧
      row.email = email := by
  obtain ⟨q, jwt, now, claims, hq, hjwt, -, hverdict, hsub, hjti⟩ := hv
  obtain ⟨before, after, e, e', rfl, hbefore, hstep, -⟩ := Trace.at_label h hq
  have hsent := hG _ _ _ hstep.2 jwt hjwt ⟨now, claims, hverdict⟩
  obtain ⟨u, row, refreshed, hp, hh, rfl⟩ :=
    PhaseRun.sent_row hbefore (S.jwt.refreshVerdict_ne_empty D hverdict) hsent
  obtain ⟨hemail, hid⟩ := S.jwt.refreshVerdict_ok D hverdict
  rw [hsub] at hemail
  rw [hjti] at hid
  have hgrow : before ⊆ before ++ .arrive t q :: after := List.subset_append_left _ _
  exact ⟨u, row, hp.mono hgrow, hh.mono hgrow, (Option.some.inj hid).symm, hemail.symm⟩

/-- The row a rotation finds was handed out, and carries the email that was presented. -/
theorem PhaseRun.held_handedOut (hG : ∀ w r l, G w r l → Unforged D S w r l)
    (h : PhaseRun D S G clock ls c) {ph : Phase} {x : Held} {email : String} {id : Uuid}
    (ht : c.threads t = some ph) (hx : ph.held = some x) (hc : ph.claimed = some (email, id)) :
    x.row.email = email ∧ HandedOut D ls x.row.familyId x.row.id := by
  have hid : x.row.id = id := by
    cases ph with
    | settle y o =>
      cases o with
      | granted d => cases hx; cases hc; rfl
      | _ => cases hc
    | done y o sid =>
      cases o with
      | granted d => cases hx; cases hc; rfl
      | _ => cases hc
    | _ => cases hx <;> cases hc <;> rfl
  subst hid
  obtain ⟨u, row, hp, hh, hrow, hemail⟩ := (h.claimed ht hc).handedOut hG h
  obtain ⟨v, hs⟩ := (h.held_found ht hx).issued h
  obtain ⟨-, rfl⟩ := h.stored_once hp.stored hs hrow
  exact ⟨hemail, hh⟩

end Presented

end SvcAuth
