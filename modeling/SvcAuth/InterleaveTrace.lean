import Mathlib.Tactic.Common
import Mathlib.Data.List.Basic
import Mathlib.Data.List.Induction

/-! Traces of a labelled step relation, with the list of labels taken. The invariant
rule carries that list, so that an invariant may speak about the past of a run. -/
namespace SvcAuth.Interleave
variable {σ ℓ : Type}

inductive Trace (R : σ → ℓ → σ → Prop) : σ → List ℓ → σ → Prop
  | nil (c : σ) : Trace R c [] c
  | snoc {c d e : σ} {ls : List ℓ} {l : ℓ} (prior : Trace R c ls d) (last : R d l e) :
      Trace R c (ls ++ [l]) e

namespace Trace
variable {R Q : σ → ℓ → σ → Prop} {c d e : σ} {ls ms : List ℓ} {l : ℓ}

theorem one (h : R c l d) : Trace R c [l] d := .snoc (.nil c) h

theorem trans (h : Trace R c ls d) (g : Trace R d ms e) : Trace R c (ls ++ ms) e := by
  induction g with
  | nil => simpa using h
  | snoc prior last ih =>
    rw [← List.append_assoc]
    exact .snoc ih last

theorem nil_iff : Trace R c [] d ↔ c = d := by
  constructor
  · intro h
    generalize hl : ([] : List ℓ) = ls at h
    cases h with
    | nil => rfl
    | snoc prior last => simp at hl
  · rintro rfl
    exact .nil c

theorem snoc_iff : Trace R c (ls ++ [l]) e ↔ ∃ d, Trace R c ls d ∧ R d l e := by
  constructor
  · intro h
    generalize hl : ls ++ [l] = ms at h
    cases h with
    | nil => simp at hl
    | snoc prior last =>
      obtain ⟨rfl, hs⟩ := List.append_inj' hl rfl
      cases hs
      exact ⟨_, prior, last⟩
  · rintro ⟨d, prior, last⟩
    exact .snoc prior last

theorem append_iff : Trace R c (ls ++ ms) e ↔ ∃ d, Trace R c ls d ∧ Trace R d ms e := by
  induction ms using List.reverseRecOn generalizing e with
  | nil => simp [nil_iff]
  | append_singleton ms m ih =>
    rw [← List.append_assoc, snoc_iff]
    constructor
    · rintro ⟨d', hp, hm⟩
      obtain ⟨d, h₁, h₂⟩ := ih.mp hp
      exact ⟨d, h₁, .snoc h₂ hm⟩
    · rintro ⟨d, h₁, h₂⟩
      obtain ⟨d', h₂, hm⟩ := snoc_iff.mp h₂
      exact ⟨d', ih.mpr ⟨d, h₁, h₂⟩, hm⟩

theorem cons_iff : Trace R c (l :: ls) e ↔ ∃ d, R c l d ∧ Trace R d ls e := by
  rw [show l :: ls = [l] ++ ls from rfl, append_iff]
  constructor
  · rintro ⟨d, h, g⟩
    obtain ⟨c', hc, hl⟩ := snoc_iff.mp (show Trace R c ([] ++ [l]) d from h)
    rw [nil_iff] at hc
    subst hc
    exact ⟨d, hl, g⟩
  · rintro ⟨d, h, g⟩
    exact ⟨d, .one h, g⟩

theorem at_label (h : Trace R c ls e) (hl : l ∈ ls) :
    ∃ before after d d', ls = before ++ l :: after ∧
      Trace R c before d ∧ R d l d' ∧ Trace R d' after e := by
  obtain ⟨before, after, rfl⟩ := List.append_of_mem hl
  obtain ⟨d, h₁, h₂⟩ := append_iff.mp h
  obtain ⟨d', hs, h₃⟩ := cons_iff.mp h₂
  exact ⟨before, after, d, d', rfl, h₁, hs, h₃⟩

theorem first_of_two {m : ℓ} (h : Trace R c ls e) (hl : l ∈ ls) (hm : m ∈ ls) : l = m ∨
    (∃ before after d d', ls = before ++ l :: after ∧ Trace R c before d ∧ R d l d' ∧ m ∈ before) ∨
    ∃ before after d d', ls = before ++ m :: after ∧ Trace R c before d ∧ R d m d' ∧ l ∈ before := by
  obtain ⟨before, after, d, d', rfl, hbefore, hstep, hafter⟩ := h.at_label hl
  rcases List.mem_append.mp hm with hm | hm
  · exact .inr (.inl ⟨before, after, d, d', rfl, hbefore, hstep, hm⟩)
  · rcases List.mem_cons.mp hm with rfl | hm
    · exact .inl rfl
    · obtain ⟨mid, rest, x, x', rfl, hmid, hstep', -⟩ := hafter.at_label hm
      exact .inr (.inr ⟨before ++ ([l] ++ mid), rest, x, x', by simp,
        hbefore.trans ((one hstep).trans hmid), hstep', by simp⟩)

theorem mono (hR : ∀ c l d, l ∈ ls → R c l d → Q c l d) (h : Trace R c ls e) : Trace Q c ls e := by
  induction h with
  | nil => exact .nil _
  | snoc prior last ih =>
    exact .snoc (ih fun c l d hl => hR c l d (by simp [hl])) (hR _ _ _ (by simp) last)

/-- What holds of the start and is kept by every step, the labels so far included,
holds at the end of every trace. -/
theorem invariant {I : List ℓ → σ → Prop} (hstart : I [] c)
    (hstep : ∀ ls d l e, Trace R c ls d → I ls d → R d l e → I (ls ++ [l]) e)
    (h : Trace R c ls e) : I ls e := by
  induction h with
  | nil => exact hstart
  | snoc prior last ih => exact hstep _ _ _ _ prior ih last

end Trace

end SvcAuth.Interleave
