import Mathlib.Tactic.Common

/-! Programs that call an interface one operation at a time. A program is a tree:
it returns, or it names an operation and continues from whatever answer comes back.
Nothing here says how operations are answered; that is left to a schedule or a world. -/
namespace SvcAuth.Interleave

/-- An interface: the operations a program may call and the type of each answer. -/
structure Sig where
  Op : Type
  Reply : Op → Type

/-- One operation together with the answer it got. -/
abbrev Sig.Event (S : Sig) := (o : S.Op) × S.Reply o

inductive Prog (S : Sig) (α : Type) : Type
  | ret (a : α)
  | call (o : S.Op) (k : S.Reply o → Prog S α)

namespace Prog
variable {S : Sig} {α β : Type}

def bind : Prog S α → (α → Prog S β) → Prog S β
  | .ret a, f => f a
  | .call o k, f => .call o fun r => (k r).bind f

instance : Monad (Prog S) where
  pure := .ret
  bind := bind

/-- The program that makes one call and returns the answer. -/
def op (o : S.Op) : Prog S (S.Reply o) := .call o .ret

@[simp] theorem pure_eq (a : α) : (pure a : Prog S α) = .ret a := rfl

@[simp] theorem ret_bind (a : α) (f : α → Prog S β) : (Prog.ret a : Prog S α) >>= f = f a := rfl

@[simp] theorem call_bind (o : S.Op) (k : S.Reply o → Prog S α) (f : α → Prog S β) :
    Prog.call o k >>= f = .call o fun r => k r >>= f := rfl

@[simp] theorem op_bind (o : S.Op) (f : S.Reply o → Prog S β) :
    op o >>= f = .call o f := rfl

theorem bind_assoc {γ : Type} (p : Prog S α) (f : α → Prog S β) (g : β → Prog S γ) :
    (p >>= f) >>= g = p >>= fun a => f a >>= g := by
  induction p with
  | ret a => rfl
  | call o k ih =>
    simp only [call_bind]
    congr 1
    funext r
    exact ih r

/-- A solo execution: the calls made, in order, with the answers they got. -/
inductive Ran : Prog S α → List S.Event → α → Prop
  | ret (a : α) : Ran (.ret a) [] a
  | call {o : S.Op} {k : S.Reply o → Prog S α} {r : S.Reply o} {tr : List S.Event} {a : α}
      (rest : Ran (k r) tr a) : Ran (.call o k) (⟨o, r⟩ :: tr) a

theorem ran_ret {a b : α} {tr : List S.Event} :
    Ran (.ret a : Prog S α) tr b ↔ tr = [] ∧ b = a := by
  constructor
  · intro h
    cases h
    exact ⟨rfl, rfl⟩
  · rintro ⟨rfl, rfl⟩
    exact .ret b

theorem ran_call {o : S.Op} {k : S.Reply o → Prog S α} {tr : List S.Event} {a : α} :
    Ran (.call o k) tr a ↔ ∃ r rest, tr = ⟨o, r⟩ :: rest ∧ Ran (k r) rest a := by
  constructor
  · intro h
    cases h with
    | call rest => exact ⟨_, _, rfl, rest⟩
  · rintro ⟨r, rest, rfl, h⟩
    exact .call h

theorem ran_done {a b : α} : Ran (.ret a : Prog S α) [] b ↔ b = a := by
  rw [ran_ret, eq_self_iff_true, true_and]

theorem ran_step {o : S.Op} {k : S.Reply o → Prog S α} {r : S.Reply o} {tr : List S.Event}
    {a : α} : Ran (.call o k) (⟨o, r⟩ :: tr) a ↔ Ran (k r) tr a := by
  constructor
  · intro h
    obtain ⟨r', rest, heq, h⟩ := ran_call.mp h
    cases heq
    exact h
  · exact .call

theorem ran_bind {p : Prog S α} {f : α → Prog S β} {tr : List S.Event} {b : β} :
    Ran (p >>= f) tr b ↔ ∃ a t₁ t₂, tr = t₁ ++ t₂ ∧ Ran p t₁ a ∧ Ran (f a) t₂ b := by
  induction p generalizing tr with
  | ret a =>
    constructor
    · intro h
      exact ⟨a, [], tr, rfl, .ret a, h⟩
    · rintro ⟨a', t₁, t₂, rfl, h₁, h₂⟩
      obtain ⟨rfl, rfl⟩ := ran_ret.mp h₁
      exact h₂
  | call o k ih =>
    rw [call_bind, ran_call]
    constructor
    · rintro ⟨r, rest, rfl, h⟩
      obtain ⟨a, t₁, t₂, rfl, h₁, h₂⟩ := (ih r).mp h
      exact ⟨a, ⟨o, r⟩ :: t₁, t₂, rfl, .call h₁, h₂⟩
    · rintro ⟨a, t₁, t₂, rfl, h₁, h₂⟩
      obtain ⟨r, rest, rfl, h⟩ := ran_call.mp h₁
      exact ⟨r, rest ++ t₂, rfl, (ih r).mpr ⟨a, rest, t₂, rfl, h, h₂⟩⟩

end Prog

/-- A machine over the interface: each phase is finished with a result, or waits for
the answer to one operation. -/
structure Machine (S : Sig) (α : Type) where
  Phase : Type
  view : Phase → α ⊕ ((o : S.Op) × (S.Reply o → Phase))

/-- Programs are a machine whose phases are the residual programs. -/
def progView {S : Sig} {α : Type} : Prog S α → α ⊕ ((o : S.Op) × (S.Reply o → Prog S α))
  | .ret a => .inl a
  | .call o k => .inr ⟨o, k⟩

abbrev Prog.machine (S : Sig) (α : Type) : Machine S α := ⟨Prog S α, progView⟩

section Simulation
variable {S : Sig} {α : Type}

/-- Related phases return the same result or wait for the same operation, and stay
related whatever the answer is. -/
structure Simulates (M N : Machine S α) (R : M.Phase → N.Phase → Prop) : Prop where
  ret : ∀ {p q a}, R p q → M.view p = .inl a → N.view q = .inl a
  call : ∀ {p q o k}, R p q → M.view p = .inr ⟨o, k⟩ →
    ∃ k', N.view q = .inr ⟨o, k'⟩ ∧ ∀ r, R (k r) (k' r)

/-- Phases have one view, so a simulation runs both ways. -/
theorem Simulates.symm {M N : Machine S α} {R : M.Phase → N.Phase → Prop}
    (h : Simulates M N R) : Simulates N M (fun q p => R p q) where
  ret := by
    intro q p a hr hq
    cases hp : M.view p with
    | inl b =>
      have hb := h.ret hr hp
      rw [hq] at hb
      cases hb
      rfl
    | inr c =>
      obtain ⟨k', hk, _⟩ := h.call hr hp
      rw [hq] at hk
      cases hk
  call := by
    intro q p o k hr hq
    cases hp : M.view p with
    | inl b =>
      have hb := h.ret hr hp
      rw [hq] at hb
      cases hb
    | inr c =>
      obtain ⟨k', hk, hall⟩ := h.call hr hp
      rw [hq] at hk
      cases hk
      exact ⟨c.2, rfl, hall⟩

/-- The program does, call by call, what the machine does from the phase. -/
inductive Follows (M : Machine S α) : Prog S α → M.Phase → Prop
  | ret {a : α} {ph : M.Phase} (h : M.view ph = .inl a) : Follows M (.ret a) ph
  | call {o : S.Op} {k : S.Reply o → Prog S α} {next : S.Reply o → M.Phase} {ph : M.Phase}
      (h : M.view ph = .inr ⟨o, next⟩) (rest : ∀ r, Follows M (k r) (next r)) :
      Follows M (.call o k) ph

theorem follows_simulates (M : Machine S α) : Simulates (Prog.machine S α) M (Follows M) where
  ret := by
    intro p q a hf hv
    cases hf with
    | ret h =>
      cases hv
      exact h
    | call h rest => cases hv
  call := by
    intro p q o k hf hv
    cases hf with
    | ret h => cases hv
    | call h rest =>
      cases hv
      exact ⟨_, h, rest⟩

end Simulation

end SvcAuth.Interleave
