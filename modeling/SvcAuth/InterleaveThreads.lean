import SvcAuth.InterleaveProg
import SvcAuth.InterleaveTrace
import Mathlib.Data.Option.Basic
import Mathlib.Logic.Function.Basic

/-! Threads of one machine interleaved over a shared world. A thread is started by a
request; each later step lets one thread make its pending call, or lets the
environment act. No step is ever forced, so a thread that is never scheduled again is
a thread that stopped between two calls. -/
namespace SvcAuth.Interleave

/-- How the world answers calls, and what may happen to it between calls. -/
structure System (S : Sig) (W E : Type) where
  exec : W → (o : S.Op) → S.Reply o → W → Prop
  env : W → E → W → Prop

/-- The world answers a call. -/
def System.answers {W E : Type} {S : Sig} (Y : System S W E) (w : W) (e : S.Event) (w' : W) : Prop :=
  Y.exec w e.1 e.2 w'

inductive Label (S : Sig) (Req E : Type)
  | arrive (t : ℕ) (q : Req)
  | call (t : ℕ) (o : S.Op) (r : S.Reply o)
  | env (e : E)

structure Config (Φ W : Type) where
  world : W
  threads : ℕ → Option Φ

/-- No thread has arrived yet. -/
def Config.initial {Φ W : Type} (w : W) : Config Φ W := ⟨w, fun _ => none⟩

variable {S : Sig} {α W E Req : Type}

/-- The result of a thread, once it has one. -/
def Config.result (M : Machine S α) (c : Config M.Phase W) (t : ℕ) : Option α :=
  match c.threads t with
  | none => none
  | some ph => (M.view ph).getLeft?

inductive Step (Y : System S W E) (M : Machine S α) (start : Req → M.Phase) :
    Config M.Phase W → Label S Req E → Config M.Phase W → Prop
  | arrive {c : Config M.Phase W} {t : ℕ} {q : Req} (idle : c.threads t = none) :
      Step Y M start c (.arrive t q) ⟨c.world, Function.update c.threads t (some (start q))⟩
  | call {c : Config M.Phase W} {t : ℕ} {ph : M.Phase} {o : S.Op} {k : S.Reply o → M.Phase}
      {r : S.Reply o} {w : W} (here : c.threads t = some ph) (waits : M.view ph = .inr ⟨o, k⟩)
      (answer : Y.exec c.world o r w) :
      Step Y M start c (.call t o r) ⟨w, Function.update c.threads t (some (k r))⟩
  | env {c : Config M.Phase W} {e : E} {w : W} (h : Y.env c.world e w) :
      Step Y M start c (.env e) ⟨w, c.threads⟩

/-- The three kinds of step. -/
theorem Step.inv {Y : System S W E} {M : Machine S α} {start : Req → M.Phase}
    {c d : Config M.Phase W} {l : Label S Req E} (h : Step Y M start c l d) :
    (∃ t q, l = .arrive t q ∧ c.threads t = none ∧ d.world = c.world ∧
      d.threads = Function.update c.threads t (some (start q))) ∨
    (∃ t ph o k r, l = .call t o r ∧ c.threads t = some ph ∧ M.view ph = .inr ⟨o, k⟩ ∧
      Y.exec c.world o r d.world ∧ d.threads = Function.update c.threads t (some (k r))) ∨
    ∃ e, l = .env e ∧ Y.env c.world e d.world ∧ d.threads = c.threads := by
  cases h with
  | arrive idle => exact .inl ⟨_, _, rfl, idle, rfl, rfl⟩
  | call here waits answer => exact .inr (.inl ⟨_, _, _, _, _, rfl, here, waits, answer, rfl⟩)
  | env h => exact .inr (.inr ⟨_, rfl, h, rfl⟩)

/-- An assumption about runs: what it allows next, given the world and the results so far. -/
abbrev Guard (S : Sig) (α W E Req : Type) := W → (ℕ → Option α) → Label S Req E → Prop

/-- A step that keeps to an assumption. -/
def GuardedStep (Y : System S W E) (M : Machine S α) (start : Req → M.Phase)
    (G : Guard S α W E Req) (c : Config M.Phase W) (l : Label S Req E) (d : Config M.Phase W) :
    Prop :=
  Step Y M start c l d ∧ G c.world (c.result M) l

section Simulation
variable {Y : System S W E} {M N : Machine S α} {R : M.Phase → N.Phase → Prop}
  {startM : Req → M.Phase} {startN : Req → N.Phase} {G : Guard S α W E Req}

/-- One world, and thread by thread related phases. -/
def Related (R : M.Phase → N.Phase → Prop) (c : Config M.Phase W) (d : Config N.Phase W) :
    Prop :=
  c.world = d.world ∧ ∀ t, Option.Rel R (c.threads t) (d.threads t)

theorem Related.symm {c : Config M.Phase W} {d : Config N.Phase W} (h : Related R c d) :
    Related (fun q p => R p q) d c := by
  refine ⟨h.1.symm, fun t => ?_⟩
  have hrel := h.2 t
  generalize c.threads t = x, d.threads t = y at hrel ⊢
  cases hrel with
  | some hr => exact .some hr
  | none => exact .none

theorem Related.result (hS : Simulates M N R) {c : Config M.Phase W} {d : Config N.Phase W}
    (h : Related R c d) : c.result M = d.result N := by
  funext t
  have hrel := h.2 t
  unfold Config.result
  generalize c.threads t = x, d.threads t = y at hrel ⊢
  cases hrel with
  | none => rfl
  | @some p q hr =>
    cases hv : M.view p with
    | inl a => simp [hv, hS.ret hr hv]
    | inr b =>
      obtain ⟨k', hk, _⟩ := hS.call (o := b.1) (k := b.2) hr hv
      simp [hv, hk]

theorem rel_update {f : ℕ → Option M.Phase} {g : ℕ → Option N.Phase} {p : M.Phase} {q : N.Phase}
    (h : ∀ t, Option.Rel R (f t) (g t)) (hr : R p q) (t u : ℕ) :
    Option.Rel R (Function.update f t (some p) u) (Function.update g t (some q) u) := by
  by_cases hu : u = t
  · subst hu
    simpa using Option.Rel.some hr
  · simpa [hu] using h u

theorem Step.simulated (hS : Simulates M N R) (hstart : ∀ q, R (startM q) (startN q))
    {c c' : Config M.Phase W} {d : Config N.Phase W} {l : Label S Req E}
    (hc : Related R c d) (hs : Step Y M startM c l c') :
    ∃ d', Step Y N startN d l d' ∧ Related R c' d' := by
  obtain ⟨hw, ht⟩ := hc
  cases hs with
  | @arrive t q idle =>
    have hidle : d.threads t = none := by
      have hrel := ht t
      rw [idle] at hrel
      cases hd : d.threads t with
      | none => rfl
      | some x => rw [hd] at hrel; cases hrel
    exact ⟨_, .arrive hidle, hw, rel_update ht (hstart q) t⟩
  | @call t p o k r w here waits answer =>
    have hrel := ht t
    rw [here] at hrel
    cases hd : d.threads t with
    | none => rw [hd] at hrel; cases hrel
    | some q =>
      rw [hd] at hrel
      cases hrel with
      | some hr =>
        obtain ⟨k', hk, hall⟩ := hS.call hr waits
        exact ⟨_, .call hd hk (hw ▸ answer), rfl, rel_update ht (hall r) t⟩
  | env h => exact ⟨_, .env (hw ▸ h), rfl, ht⟩

/-- A run of one machine is a run of the other, label by label. -/
theorem Trace.simulated (hS : Simulates M N R) (hstart : ∀ q, R (startM q) (startN q))
    {c c' : Config M.Phase W} {d : Config N.Phase W} {ls : List (Label S Req E)}
    (hc : Related R c d) (h : Trace (GuardedStep Y M startM G) c ls c') :
    ∃ d', Trace (GuardedStep Y N startN G) d ls d' ∧ Related R c' d' := by
  induction h with
  | nil => exact ⟨d, .nil d, hc⟩
  | snoc prior last ih =>
    obtain ⟨d₁, hp, h₁⟩ := ih
    obtain ⟨d₂, hs, h₂⟩ := last.1.simulated hS hstart h₁
    refine ⟨d₂, .snoc hp ⟨hs, ?_⟩, h₂⟩
    rw [← h₁.result hS, ← h₁.1]
    exact last.2

end Simulation

section History
variable {Y : System S W E} {M : Machine S α} {start : Req → M.Phase} {G : Guard S α W E Req}
  {c d : Config M.Phase W} {ls : List (Label S Req E)} {l : Label S Req E} {t : ℕ}

/-- How a thread came to be in its phase: it was already there, it just arrived, or it
just got an answer. -/
theorem Step.thread {ph' : M.Phase} (h : Step Y M start c l d) (ht : d.threads t = some ph') :
    (c.threads t = some ph') ∨
    (∃ q, l = .arrive t q ∧ c.threads t = none ∧ ph' = start q) ∨
    (∃ ph o k r, l = .call t o r ∧ c.threads t = some ph ∧ M.view ph = .inr ⟨o, k⟩ ∧
      ph' = k r ∧ Y.exec c.world o r d.world) := by
  rcases h.inv with ⟨u, q, rfl, idle, -, hd⟩ | ⟨u, ph, o, k, r, rfl, here, waits, answer, hd⟩
    | ⟨e, rfl, -, hd⟩
  · rw [hd] at ht
    by_cases hu : t = u
    · subst hu
      simp only [Function.update_self, Option.some.injEq] at ht
      exact .inr (.inl ⟨q, rfl, idle, ht.symm⟩)
    · simp only [Function.update_of_ne hu] at ht
      exact .inl ht
  · rw [hd] at ht
    by_cases hu : t = u
    · subst hu
      simp only [Function.update_self, Option.some.injEq] at ht
      exact .inr (.inr ⟨ph, o, k, r, rfl, here, waits, ht.symm, answer⟩)
    · simp only [Function.update_of_ne hu] at ht
      exact .inl ht
  · rw [hd] at ht
    exact .inl ht

theorem Step.stays {ph : M.Phase} (h : Step Y M start c l d) (ht : c.threads t = some ph) :
    ∃ ph', d.threads t = some ph' := by
  cases h with
  | @arrive u q idle =>
    by_cases hu : t = u
    · subst hu
      exact ⟨start q, by simp⟩
    · exact ⟨ph, by simpa [hu] using ht⟩
  | @call u ph' o k r w here waits answer =>
    by_cases hu : t = u
    · subst hu
      exact ⟨k r, by simp⟩
    · exact ⟨ph, by simpa [hu] using ht⟩
  | env h => exact ⟨ph, ht⟩

theorem Step.answered {ph : M.Phase} {a : α} (h : Step Y M start c l d)
    (ht : c.threads t = some ph) (hopen : c.result M t = none) (ha : d.result M t = some a) :
    ∃ o r, l = .call t o r ∧ Y.exec c.world o r d.world := by
  obtain ⟨ph', ht'⟩ := h.stays ht
  rcases h.thread ht' with hold | ⟨q, -, hnone, -⟩ | ⟨ph₀, o, k, r, rfl, -, -, -, hw⟩
  · have hsame : d.result M t = c.result M t := by
      unfold Config.result
      rw [ht', hold]
    rw [hsame, hopen] at ha
    cases ha
  · rw [ht] at hnone
    cases hnone
  · exact ⟨o, r, rfl, hw⟩

theorem Step.executed {o : S.Op} {r : S.Reply o} (h : Step Y M start c (.call t o r) d) :
    Y.exec c.world o r d.world := by
  cases h with
  | call here waits answer => exact answer

theorem Trace.stays {ph : M.Phase} (h : Trace (GuardedStep Y M start G) c ls d)
    (ht : c.threads t = some ph) : ∃ ph', d.threads t = some ph' := by
  induction h with
  | nil => exact ⟨ph, ht⟩
  | snoc prior last ih =>
    obtain ⟨ph', h'⟩ := ih
    exact last.1.stays h'

theorem Trace.finished {ph : M.Phase} {a : α} (h : Trace (GuardedStep Y M start G) c ls d)
    (ht : c.threads t = some ph) (hv : M.view ph = .inl a) :
    d.threads t = some ph ∧ ∀ o r, .call t o r ∉ ls := by
  induction h with
  | nil => exact ⟨ht, by simp⟩
  | snoc prior last ih =>
    obtain ⟨hhere, hsilent⟩ := ih
    obtain ⟨ph', ht'⟩ := last.1.stays hhere
    rcases last.1.thread ht' with hsame | ⟨q, -, hnone, -⟩ | ⟨ph₀, o, k, r, -, h₀, hwaits, -⟩
    · rw [hhere] at hsame
      cases hsame
      refine ⟨ht', fun o r hl => ?_⟩
      rcases List.mem_append.mp hl with hold | hnew
      · exact hsilent o r hold
      · cases List.mem_singleton.mp hnew
        cases last.1 with
        | call here waits answer =>
          rw [hhere] at here
          cases here
          rw [hv] at waits
          cases waits
    · rw [hhere] at hnone
      cases hnone
    · rw [hhere] at h₀
      cases h₀
      rw [hv] at hwaits
      cases hwaits

/-- What is known of a thread by its phase: it holds when the thread arrives, every
answer the thread gets leads from one fact to the next, and more log refutes nothing. -/
theorem Trace.known {w₀ : W} {P : List (Label S Req E) → ℕ → M.Phase → Prop}
    (hmono : ∀ ls l t ph, P ls t ph → P (ls ++ [l]) t ph)
    (hstart : ∀ ls c t q, Trace (GuardedStep Y M start G) (.initial w₀) ls c →
      (∀ u ph, c.threads u = some ph → P ls u ph) → G c.world (c.result M) (.arrive t q) →
      P (ls ++ [.arrive t q]) t (start q))
    (hcall : ∀ ls c t ph o k r w, Trace (GuardedStep Y M start G) (.initial w₀) ls c →
      c.threads t = some ph → P ls t ph → M.view ph = .inr ⟨o, k⟩ → Y.exec c.world o r w →
      G c.world (c.result M) (.call t o r) → P (ls ++ [.call t o r]) t (k r))
    (h : Trace (GuardedStep Y M start G) (.initial w₀) ls c) :
    ∀ t ph, c.threads t = some ph → P ls t ph := by
  refine h.invariant (I := fun ls c => ∀ t ph, c.threads t = some ph → P ls t ph) ?_ ?_
  · intro t ph ht
    cases ht
  · intro ls c l d prior ih hs t ph ht
    rcases hs.1.thread ht with hold | ⟨q, rfl, -, rfl⟩ | ⟨ph₀, o, k, r, rfl, h₀, hv, rfl, hw⟩
    · exact hmono _ _ _ _ (ih t ph hold)
    · exact hstart ls c t q prior ih hs.2
    · exact hcall ls c t ph₀ o k r _ prior h₀ (ih t ph₀ h₀) hv hw hs.2

/-- What the phase of a thread still shows of an answer the thread once got. -/
theorem Trace.after_call {Q : (o : S.Op) → S.Reply o → M.Phase → Prop}
    (hnew : ∀ ph o k r, M.view ph = .inr ⟨o, k⟩ → Q o r (k r))
    (hkeep : ∀ ph o k r o' r', M.view ph = .inr ⟨o, k⟩ → Q o' r' ph → Q o' r' (k r))
    (h : Trace (GuardedStep Y M start G) c ls d) {o : S.Op} {r : S.Reply o}
    (hl : .call t o r ∈ ls) : ∃ ph, d.threads t = some ph ∧ Q o r ph := by
  induction h with
  | nil => simp at hl
  | @snoc d e ls l prior last ih =>
    rw [List.mem_append, List.mem_singleton] at hl
    rcases hl with hl | rfl
    · obtain ⟨ph, ht, hq⟩ := ih hl
      obtain ⟨ph', ht'⟩ := last.1.stays ht
      refine ⟨ph', ht', ?_⟩
      rcases last.1.thread ht' with h₀ | ⟨q, -, h₀, -⟩ | ⟨ph₀, o', k, r', -, h₀, hv, rfl, -⟩
      · rw [ht] at h₀
        cases h₀
        exact hq
      · rw [ht] at h₀
        cases h₀
      · rw [ht] at h₀
        cases h₀
        exact hkeep _ _ _ _ _ _ hv hq
    · cases last.1 with
      | @call _ ph _ k _ w here waits answer => exact ⟨k r, by simp, hnew _ _ _ _ waits⟩

theorem Trace.called (h : Trace (GuardedStep Y M start G) c ls d) {o : S.Op} {r : S.Reply o}
    (hl : .call t o r ∈ ls) : ∃ ph, d.threads t = some ph := by
  obtain ⟨ph, ht, -⟩ := Trace.after_call (Q := fun _ _ _ => True) (fun _ _ _ _ _ => trivial)
    (fun _ _ _ _ _ _ _ _ => trivial) h hl
  exact ⟨ph, ht⟩

theorem Trace.arrived (h : Trace (GuardedStep Y M start G) c ls d) :
    (∀ t q, .arrive t q ∈ ls → c.threads t = none ∧ ∃ ph, d.threads t = some ph) ∧
    ∀ t q q', .arrive t q ∈ ls → .arrive t q' ∈ ls → q = q' := by
  induction h with
  | nil => simp
  | @snoc d e ls l prior last ih =>
    have hback : ∀ t, d.threads t = none → c.threads t = none := by
      intro t ht
      cases hc : c.threads t with
      | none => rfl
      | some ph =>
        obtain ⟨ph', h'⟩ := prior.stays hc
        rw [ht] at h'
        cases h'
    have hfresh : ∀ t q, l = .arrive t q →
        d.threads t = none ∧ e.threads t = some (start q) := by
      rintro t q rfl
      cases last.1 with
      | arrive idle => exact ⟨idle, by simp⟩
    constructor
    · intro t q hq
      rw [List.mem_append, List.mem_singleton] at hq
      rcases hq with hq | hq
      · obtain ⟨hc, ph, ht⟩ := ih.1 t q hq
        exact ⟨hc, last.1.stays ht⟩
      · obtain ⟨hd, he⟩ := hfresh t q hq.symm
        exact ⟨hback t hd, _, he⟩
    · intro t q q' hq hq'
      rw [List.mem_append, List.mem_singleton] at hq hq'
      rcases hq with hq | hq <;> rcases hq' with hq' | hq'
      · exact ih.2 t q q' hq hq'
      · obtain ⟨-, ph, ht⟩ := ih.1 t q hq
        rw [(hfresh t q' hq'.symm).1] at ht
        cases ht
      · obtain ⟨-, ph, ht⟩ := ih.1 t q' hq'
        rw [(hfresh t q hq.symm).1] at ht
        cases ht
      · rw [← hq] at hq'
        cases hq'
        rfl

end History

end SvcAuth.Interleave
