import SvcAuth.HandedOut
import SvcAuth.PhaseFollows
import SvcAuth.SampleDeployment
import SvcAuth.FirstFamily
import Mathlib.Data.List.Chain

/-! One winner per refresh token and one chain per family. The chain grows at its end
only: whatever a rotation replaces was handed out and never replaced before. -/
namespace SvcAuth
open Interleave RevisionBucket RefreshTokenStore

/-- This step ends a rotation of token `id` with success. -/
def Commits (D : Deps) (id : Uuid) (l : Event) : Prop :=
  ∃ t v rev, l = .call t (.updateIf (rowKey D id) v rev) (.ok ())

variable {D : Deps} {S : AppState} {G : Assumption} {clock : ℕ} {ls ms : List Event}
  {c d : PhaseState} {l : Event} {t u : ℕ}

section Winner

theorem rotate_commits {old new : RefreshToken} {revision : Revision} {tr : List Calls.Event}
    {r : Except RotationError Unit} (h : Prog.Ran (rotate D old revision new) tr r) (t : ℕ) :
    r = .ok () ↔ ∃ e ∈ tr, Commits D old.id (.call t e.1 e.2) := by
  rw [rotate_ok_iff h]
  constructor
  · rintro ⟨v, rev, hl⟩
    exact ⟨_, hl, t, v, rev, rfl⟩
  · rintro ⟨⟨o, reply⟩, he, u, v, rev, heq⟩
    cases heq
    exact ⟨v, rev, he⟩

end Winner

section Chain

theorem handedOut_snoc (prior : PhaseRun D S G clock ls c)
    (hs : GuardedStep service (machine D S) (start D S) G c l d) {f id : Uuid}
    (h : HandedOut D (ls ++ [l]) f id) : HandedOut D ls f id ∨
      (∃ t s p, l = .call t (.put (rowKey D p.id) (.token p.row)) (.ok ()) ∧
        c.threads t = some (.loginStore s p) ∧ p.family = f ∧ p.id = id) ∨
      ∃ t y x now, l = .call t (.updateIf (rowKey D x.held.row.id) (.token (x.replaced now))
          x.held.revision) (.ok ()) ∧
        c.threads t = some (.mark y x now) ∧ x.held.row.familyId = f ∧ x.id = id := by
  rcases h with ⟨t, row, harrived, hplaced, hf, hid⟩ | ⟨t, row, ⟨rev, hl⟩, hf, hrep⟩
  · rcases List.mem_append.mp hplaced with hold | hnew
    · obtain ⟨q, hq, hkind⟩ := harrived
      rcases List.mem_append.mp hq with hq | hq
      · exact .inl (.inl ⟨t, row, ⟨q, hq, hkind⟩, hold, hf, hid⟩)
      · obtain ⟨ph, ht⟩ := Trace.called prior hold
        rw [List.mem_singleton] at hq
        subst hq
        rcases hs.1.inv with ⟨t', q', heq, hidle, -⟩ | ⟨_, _, _, _, _, heq, -⟩ | ⟨_, heq, -⟩
        · cases heq
          rw [ht] at hidle
          cases hidle
        · cases heq
        · cases heq
    · rw [List.mem_singleton] at hnew
      subst hnew
      obtain ⟨ph, ph', ht, hm, -⟩ := step_call hs.1
      rcases hm.put_token with ⟨x, e, rfl, -⟩ | ⟨s, p, rfl, hk, rfl⟩
      · cases Arrived.unique (.snoc prior hs) harrived
          ((PhaseRun.arrived prior ht rfl).mono (log_grows _ _))
      · exact .inr (.inl ⟨t, s, p, rfl, ht, hf, hid⟩)
  · rcases List.mem_append.mp hl with hold | hnew
    · exact .inl (.inr ⟨t, row, ⟨rev, hold⟩, hf, hrep⟩)
    · rw [List.mem_singleton] at hnew
      subst hnew
      obtain ⟨ph, ph', ht, hm, -⟩ := step_call hs.1
      obtain ⟨y, x, now, rfl, -, -, hv, rfl⟩ := hm.updateIf
      cases hv
      exact .inr (.inr ⟨t, y, x, now, rfl, ht, hf, Option.some.inj hrep⟩)

theorem isChain_last {α : Type} {R : α → α → Prop} {xs : List α} {a : α} (h : xs.IsChain R)
    (ha : a ∈ xs) (hlast : ∀ b, ¬ R a b) : ∃ ys, xs = ys ++ [a] := by
  obtain ⟨ys, zs, rfl⟩ := List.append_of_mem ha
  cases zs with
  | nil => exact ⟨ys, rfl⟩
  | cons b zs => exact absurd (List.isChain_append_cons_cons.mp h).2.1 (hlast b)

theorem opening_fresh (prior : PhaseRun D S G clock ls c) {s : Option String} {p : Opening}
    (ht : c.threads t = some (.loginStore s p)) (id : Uuid) : ¬ HandedOut D ls p.family id := by
  intro hh
  obtain ⟨u, row, hp, -, hf⟩ := hh.placed prior
  exact prior.fresh.unpublished t _ p.family ht (by simp [Phase.pending])
    ⟨u, row, hp.stored, .inr hf⟩

theorem draft_fresh (prior : PhaseRun D S G clock ls c) {y : Ctx} {x : Draft} {now : ℕ}
    (ht : c.threads t = some (.mark y x now)) (f : Uuid) : ¬ HandedOut D ls f x.id := by
  have hplaced := prior.draft_placed (x := x) ht rfl
  rintro (⟨u, row, harrived, hp, -, hid⟩ | ⟨u, row, hc, -, hrep⟩)
  · obtain ⟨rfl, -⟩ := prior.stored_once hp.stored hplaced.stored hid
    cases Arrived.unique prior harrived (prior.arrived ht rfl)
  · obtain ⟨x', now', rfl, -, hp⟩ := hc.marked.rotation prior
    obtain ⟨rfl, -⟩ := prior.stored_once hp.stored hplaced.stored (Option.some.inj hrep)
    obtain ⟨ph, ht', hclosing⟩ := Marked.closing prior hc.marked
    rw [ht] at ht'
    cases ht'
    cases hclosing

/-- The tokens a family has handed out, in order: each was replaced by the next. -/
structure FamilyChain (D : Deps) (ls : List Event) (f : Uuid) (chain : List Uuid) : Prop where
  nodup : chain.Nodup
  mem_iff : ∀ id, id ∈ chain ↔ HandedOut D ls f id
  linked : chain.IsChain (Replaced D ls)

theorem FamilyChain.opens (prior : PhaseRun D S G clock ls c) {s : Option String} {p : Opening}
    (ht : c.threads t = some (.loginStore s p))
    (hs : GuardedStep service (machine D S) (start D S) G c
      (.call t (.put (rowKey D p.id) (.token p.row)) (.ok ())) d) :
    FamilyChain D (ls ++ [.call t (.put (rowKey D p.id) (.token p.row)) (.ok ())]) p.family
      [p.id] := by
  refine ⟨by simp, fun id => ?_, .singleton _⟩
  rw [List.mem_singleton]
  constructor
  · rintro rfl
    exact .inl ⟨t, p.row, (prior.arrived ht rfl).mono (log_grows ls _), List.mem_concat_self,
      rfl, rfl⟩
  · intro hh
    rcases handedOut_snoc prior hs hh with hold | ⟨t', s', p', heq, ht', -, rfl⟩ |
      ⟨t', y, x, now, heq, -⟩
    · exact absurd hold (opening_fresh prior ht id)
    · injection heq with htt
      rw [← htt, ht] at ht'
      cases ht'
      rfl
    · cases heq

theorem FamilyChain.grows (hG : ∀ w r l, G w r l → Unforged D S w r l)
    (prior : PhaseRun D S G clock ls c) {y : Ctx} {x : Draft} {now : ℕ}
    (ht : c.threads t = some (.mark y x now))
    (hs : GuardedStep service (machine D S) (start D S) G c (.call t (.updateIf
      (rowKey D x.held.row.id) (.token (x.replaced now)) x.held.revision) (.ok ())) d)
    {chain : List Uuid} (h : FamilyChain D ls x.held.row.familyId chain) :
    FamilyChain D (ls ++ [.call t (.updateIf (rowKey D x.held.row.id) (.token (x.replaced now))
      x.held.revision) (.ok ())]) x.held.row.familyId (chain ++ [x.id]) := by
  have hnew : Committed D (ls ++ [.call t (.updateIf (rowKey D x.held.row.id)
      (.token (x.replaced now)) x.held.revision) (.ok ())]) t (x.replaced now) :=
    ⟨_, List.mem_concat_self⟩
  have hold := (PhaseRun.held_handedOut hG prior ht rfl rfl).2
  -- nothing has replaced the presented token yet, so it ends the chain
  obtain ⟨ys, rfl⟩ := isChain_last h.linked ((h.mem_iff _).mpr hold) (by
    rintro b ⟨u, row, hc, hid, -⟩
    exact step_commits_once prior hs.1 hc hid)
  refine ⟨?_, fun id => ?_, ?_⟩
  · rw [List.nodup_append]
    refine ⟨h.nodup, by simp, fun a ha b hb => ?_⟩
    rw [List.mem_singleton] at hb
    rintro rfl
    exact draft_fresh prior ht _ (hb ▸ (h.mem_iff a).mp ha)
  · rw [List.mem_append, List.mem_singleton, h.mem_iff]
    constructor
    · rintro (hid | rfl)
      · exact hid.mono (log_grows ls _)
      · exact .inr ⟨t, x.replaced now, hnew, rfl, rfl⟩
    · intro hh
      rcases handedOut_snoc prior hs hh with hid | ⟨t', s, p, heq, -⟩ |
        ⟨t', y', x', now', heq, ht', -, rfl⟩
      · exact .inl hid
      · cases heq
      · injection heq with htt
        rw [← htt, ht] at ht'
        cases ht'
        exact .inr rfl
  · refine (h.linked.imp fun a b hr => hr.mono (log_grows ls _)).append (.singleton _) ?_
    intro a ha b hb
    have ha' : x.held.row.id = a := by simpa using ha
    have hb' : x.id = b := by simpa using hb
    exact ⟨t, x.replaced now, hnew, ha', congrArg some hb'⟩

theorem PhaseRun.chain (hG : ∀ w r l, G w r l → Unforged D S w r l)
    (h : PhaseRun D S G clock ls c) : ∀ f, ∃ chain, FamilyChain D ls f chain := by
  refine h.invariant (I := fun ls _ => ∀ f, ∃ chain, FamilyChain D ls f chain) ?_ ?_
  · refine fun f => ⟨[], List.nodup_nil, fun id => ⟨fun hid => (nomatch hid), ?_⟩, .nil⟩
    rintro (⟨t, row, -, hp, -⟩ | ⟨t, row, ⟨rev, hl⟩, -⟩)
    · cases hp
    · cases hl
  · intro ls c l d prior ih hs f
    obtain ⟨chain, hchain⟩ := ih f
    by_cases hsame : ∀ id, HandedOut D (ls ++ [l]) f id → HandedOut D ls f id
    · refine ⟨chain, hchain.nodup, fun id => ?_, ?_⟩
      · rw [hchain.mem_iff]
        exact ⟨fun hh => hh.mono (log_grows ls l), hsame id⟩
      · exact hchain.linked.imp fun a b hr => hr.mono (log_grows ls l)
    · push Not at hsame
      obtain ⟨new, hnew, hnot⟩ := hsame
      rcases handedOut_snoc prior hs hnew with hold | ⟨t, s, p, rfl, ht, rfl, rfl⟩ |
        ⟨t, y, x, now, rfl, ht, rfl, rfl⟩
      · exact absurd hold hnot
      · exact ⟨[p.id], FamilyChain.opens prior ht hs⟩
      · exact ⟨chain ++ [x.id], FamilyChain.grows hG prior ht hs hchain⟩

end Chain

section Store

end Store

end SvcAuth
