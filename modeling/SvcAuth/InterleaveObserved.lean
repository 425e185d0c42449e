import SvcAuth.InterleaveCarried

/-! Runs in which it is noted what had been answered when a request arrived. A system that is
carried out by another has runs with the same notes: whatever was answered before a request
arrived below was answered before it arrived above. -/
namespace SvcAuth.Interleave

section Observed
variable {S : Sig} {α W E Req : Type} {Y : System S W E} {M : Machine S α}
  {start : Req → M.Phase} {w : W} {ls : List (Label S Req E)} {c : Config M.Phase W}

/-- When request `t` arrives, just these requests have been answered, and in this way. -/
def Observed (noted : ℕ → ℕ → Option α) : Guard S α W E Req
  | _, responses, .arrive t _ => responses = noted t
  | _, _, .call _ _ _ => True
  | _, _, .env _ => True

/-- What is noted of a request that has not arrived does not matter. -/
theorem Trace.noted_other {noted : ℕ → ℕ → Option α} {t : ℕ} (note : ℕ → Option α)
    (hnot : ∀ q, .arrive t q ∉ ls)
    (h : Trace (GuardedStep Y M start (Observed noted)) (.initial w) ls c) :
    Trace (GuardedStep Y M start (Observed (Function.update noted t note))) (.initial w) ls c := by
  refine h.mono ?_
  intro c l d hl hs
  refine ⟨hs.1, ?_⟩
  cases l with
  | arrive u q =>
    have hu : u ≠ t := by
      rintro rfl
      exact hnot q hl
    simp only [Observed, Function.update_of_ne hu]
    exact hs.2
  | call u o r => trivial
  | env e => trivial

theorem Trace.observed {G : Guard S α W E Req}
    (h : Trace (GuardedStep Y M start G) (.initial w) ls c) :
    ∃ noted, Trace (GuardedStep Y M start (Observed noted)) (.initial w) ls c := by
  induction h with
  | nil => exact ⟨fun _ _ => none, .nil _⟩
  | @snoc d e ls l prior last ih =>
    obtain ⟨noted, hprior⟩ := ih
    cases l with
    | arrive t q =>
      have hnew : ∀ q', .arrive t q' ∉ ls := by
        intro q' hq'
        obtain ⟨-, ph, ht⟩ := prior.arrived.1 t q' hq'
        cases last.1 with
        | arrive idle =>
          rw [idle] at ht
          cases ht
      refine ⟨_, .snoc (hprior.noted_other (d.result M) hnew) ⟨last.1, ?_⟩⟩
      simp only [Observed, Function.update_self]
    | call t o r => exact ⟨noted, .snoc hprior ⟨last.1, trivial⟩⟩
    | env e => exact ⟨noted, .snoc hprior ⟨last.1, trivial⟩⟩

end Observed

section Above
variable {S T : Sig} {α W V E F Req : Type} {h : (o : S.Op) → Prog T (S.Reply o)} {π : V → W}
  {see : F → Option E}

theorem observed_above (noted : ℕ → ℕ → Option α) : GuardAbove h
    (Observed noted : Guard S α W E Req) (Observed noted : Guard T α V F Req) π see where
  arrive := fun h => h
  at_once := fun _ => trivial
  call := fun _ _ _ => trivial
  env := fun _ _ => trivial

end Above

end SvcAuth.Interleave
