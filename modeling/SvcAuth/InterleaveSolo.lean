import SvcAuth.InterleaveThreads

/-! Programs on their own: executions cut short, executions under a script of answers,
and programs whose calls are carried out by other programs. In a run of many threads each
thread goes through an execution of its own program. -/
namespace SvcAuth.Interleave

namespace Prog
variable {S T : Sig} {α β : Type}

/-- The program got these answers to its first calls and is left with this one. -/
inductive After : Prog S α → List S.Event → Prog S α → Prop
  | nil (p : Prog S α) : After p [] p
  | call {o : S.Op} {k : S.Reply o → Prog S α} {r : S.Reply o} {tr : List S.Event} {p : Prog S α}
      (rest : After (k r) tr p) : After (.call o k) (⟨o, r⟩ :: tr) p

theorem After.not_ret {a : α} {tr : List S.Event} {o : S.Op} {k : S.Reply o → Prog S α}
    (h : After (.ret a) tr (.call o k)) : False := by
  cases h

theorem after_call {o : S.Op} {k : S.Reply o → Prog S α} {p : Prog S α} {tr : List S.Event} :
    After (.call o k) tr p ↔ (tr = [] ∧ p = .call o k) ∨
      ∃ r rest, tr = ⟨o, r⟩ :: rest ∧ After (k r) rest p := by
  constructor
  · intro h
    cases h with
    | nil => exact .inl ⟨rfl, rfl⟩
    | call rest => exact .inr ⟨_, _, rfl, rest⟩
  · rintro (⟨rfl, rfl⟩ | ⟨r, rest, rfl, h⟩)
    · exact .nil _
    · exact .call h

theorem After.answered {o o' : S.Op} {k : S.Reply o → Prog S α} {k' : S.Reply o' → Prog S α}
    {tr : List S.Event} (h : After (.call o k) tr (.call o' k')) (hne : o ≠ o') :
    ∃ r rest, tr = ⟨o, r⟩ :: rest ∧ After (k r) rest (.call o' k') := by
  rcases after_call.mp h with ⟨-, heq⟩ | hafter
  · cases heq
    exact absurd rfl hne
  · exact hafter

theorem After.snoc {p : Prog S α} {tr : List S.Event} {o : S.Op} {k : S.Reply o → Prog S α}
    (h : After p tr (.call o k)) (r : S.Reply o) : After p (tr ++ [⟨o, r⟩]) (k r) := by
  generalize hq : Prog.call o k = q at h
  induction h with
  | nil =>
    subst hq
    exact .call (.nil _)
  | call rest ih => exact .call (ih hq)

theorem After.ran {p : Prog S α} {tr : List S.Event} {a : α} (h : After p tr (.ret a)) :
    Ran p tr a := by
  generalize hq : Prog.ret a = q at h
  induction h with
  | nil =>
    subst hq
    exact .ret a
  | call rest ih => exact .call (ih hq)

theorem Ran.after {p : Prog S α} {tr : List S.Event} {a : α} (h : Ran p tr a) :
    After p tr (.ret a) := by
  induction h with
  | ret a => exact .nil _
  | call rest ih => exact .call ih

theorem After.bind {p : Prog S α} {f : α → Prog S β} {tr : List S.Event} {o : S.Op}
    {k : S.Reply o → Prog S α} (h : After p tr (.call o k)) :
    After (p >>= f) tr (.call o fun r => k r >>= f) := by
  generalize hq : Prog.call o k = q at h
  induction h with
  | nil =>
    subst hq
    exact .nil _
  | call rest ih => exact .call (ih hq)

/-- A sequenced program that waits is in its first half, or has finished it and waits in
the second. -/
theorem after_bind {p : Prog S α} {f : α → Prog S β} {tr : List S.Event} {o : S.Op}
    {k : S.Reply o → Prog S β} (h : After (p >>= f) tr (.call o k)) :
    (∃ k', After p tr (.call o k')) ∨
      ∃ a t₁ t₂, tr = t₁ ++ t₂ ∧ Ran p t₁ a ∧ After (f a) t₂ (.call o k) := by
  induction p generalizing tr with
  | ret a => exact .inr ⟨a, [], tr, rfl, .ret a, h⟩
  | call o' k₀ ih =>
    rw [call_bind, after_call] at h
    rcases h with ⟨rfl, hcall⟩ | ⟨r, rest, rfl, h⟩
    · cases hcall
      exact .inl ⟨k₀, .nil _⟩
    · rcases ih r h with ⟨k', hk⟩ | ⟨a, t₁, t₂, rfl, hr, hq⟩
      · exact .inl ⟨k', .call hk⟩
      · exact .inr ⟨a, ⟨o', r⟩ :: t₁, t₂, rfl, .call hr, hq⟩

theorem Ran.unique {p : Prog S α} {tr tr' rest rest' : List S.Event} {a b : α} (h : Ran p tr a)
    (h' : Ran p tr' b) (heq : tr ++ rest = tr' ++ rest') : tr = tr' ∧ a = b := by
  induction h generalizing tr' with
  | ret a =>
    obtain ⟨rfl, rfl⟩ := ran_ret.mp h'
    exact ⟨rfl, rfl⟩
  | @call o k r tr a _ ih =>
    obtain ⟨r', tail, rfl, hrest⟩ := ran_call.mp h'
    obtain ⟨hevent, htail⟩ := List.cons.inj heq
    cases hevent
    obtain ⟨rfl, rfl⟩ := ih hrest htail
    exact ⟨rfl, rfl⟩

section Worlds
variable {W : Type}

/-- The execution in a world that answers each call and changes with it. -/
def execute (answer : W → (o : S.Op) → S.Reply o × W) : W → Prog S α → α × W
  | w, .ret a => (a, w)
  | w, .call o k => execute answer (answer w o).2 (k (answer w o).1)

variable {answer : W → (o : S.Op) → S.Reply o × W}

@[simp] theorem execute_ret (w : W) (a : α) : execute answer w (.ret a : Prog S α) = (a, w) := rfl

@[simp] theorem execute_call (w : W) (o : S.Op) (k : S.Reply o → Prog S α) :
    execute answer w (.call o k) = execute answer (answer w o).2 (k (answer w o).1) := rfl

theorem execute_bind (w : W) (p : Prog S α) (f : α → Prog S β) :
    execute answer w (p >>= f) =
      execute answer (execute answer w p).2 (f (execute answer w p).1) := by
  induction p generalizing w with
  | ret a => rfl
  | call o k ih => exact ih _ _

end Worlds

section Scripts

/-- The execution under a script that answers the calls by their number. -/
def play (answers : ℕ → (o : S.Op) → S.Reply o) : ℕ → Prog S α → List S.Event × α
  | _, .ret a => ([], a)
  | n, .call o k =>
    let rest := play answers (n + 1) (k (answers n o))
    (⟨o, answers n o⟩ :: rest.1, rest.2)

variable {answers answers' : ℕ → (o : S.Op) → S.Reply o}

@[simp] theorem play_ret (n : ℕ) (a : α) : (Prog.ret a : Prog S α).play answers n = ([], a) := rfl

@[simp] theorem play_call (n : ℕ) (o : S.Op) (k : S.Reply o → Prog S α) :
    (Prog.call o k).play answers n =
      (⟨o, answers n o⟩ :: ((k (answers n o)).play answers (n + 1)).1,
        ((k (answers n o)).play answers (n + 1)).2) := rfl

theorem play_bind (n : ℕ) (p : Prog S α) (f : α → Prog S β) :
    (p >>= f).play answers n = ((p.play answers n).1 ++
      ((f (p.play answers n).2).play answers (n + (p.play answers n).1.length)).1,
      ((f (p.play answers n).2).play answers (n + (p.play answers n).1.length)).2) := by
  induction p generalizing n with
  | ret a => simp
  | call o k ih => simp [ih, Nat.add_assoc, Nat.add_comm 1]

theorem play_shift (hshift : ∀ n o, answers' (n + 1) o = answers n o) (n : ℕ) (p : Prog S α) :
    p.play answers' (n + 1) = p.play answers n := by
  induction p generalizing n with
  | ret a => rfl
  | call o k ih => simp [hshift, ih]

end Scripts

section Interpretation

/-- Every call is carried out by a program over another interface. -/
def interpret (h : (o : S.Op) → Prog T (S.Reply o)) : Prog S α → Prog T α
  | .ret a => .ret a
  | .call o k => h o >>= fun r => (k r).interpret h

variable {h : (o : S.Op) → Prog T (S.Reply o)}

@[simp] theorem interpret_ret (a : α) : (Prog.ret a : Prog S α).interpret h = .ret a := rfl

@[simp] theorem interpret_call (o : S.Op) (k : S.Reply o → Prog S α) :
    (Prog.call o k).interpret h = h o >>= fun r => (k r).interpret h := rfl

/-- The calls of a program, and the calls made to carry them out in turn. -/
inductive Carried (h : (o : S.Op) → Prog T (S.Reply o)) : List S.Event → List T.Event → Prop
  | nil : Carried h [] []
  | cons {e : S.Event} {es : List S.Event} {t₁ t₂ : List T.Event} (first : Ran (h e.1) t₁ e.2)
      (rest : Carried h es t₂) : Carried h (e :: es) (t₁ ++ t₂)

theorem ran_interpret {p : Prog S α} {tr : List T.Event} {a : α} :
    Ran (p.interpret h) tr a ↔ ∃ es, Ran p es a ∧ Carried h es tr := by
  induction p generalizing tr with
  | ret b =>
    rw [interpret_ret, ran_ret]
    constructor
    · rintro ⟨rfl, rfl⟩
      exact ⟨[], .ret a, .nil⟩
    · rintro ⟨es, hran, hcarried⟩
      obtain ⟨rfl, rfl⟩ := ran_ret.mp hran
      cases hcarried
      exact ⟨rfl, rfl⟩
  | call o k ih =>
    rw [interpret_call, ran_bind]
    constructor
    · rintro ⟨r, t₁, t₂, rfl, hfirst, hrest⟩
      obtain ⟨es, hran, hcarried⟩ := (ih r).mp hrest
      exact ⟨⟨o, r⟩ :: es, .call hran, .cons hfirst hcarried⟩
    · rintro ⟨es, hran, hcarried⟩
      obtain ⟨r, rest, rfl, hrest⟩ := ran_call.mp hran
      cases hcarried with
      | cons first hmore => exact ⟨r, _, _, rfl, first, (ih r).mpr ⟨rest, hrest, hmore⟩⟩

theorem carried_one {e : S.Event} {tr : List T.Event} : Carried h [e] tr ↔ Ran (h e.1) tr e.2 := by
  constructor
  · intro hcarried
    cases hcarried with
    | cons first rest =>
      cases rest
      rw [List.append_nil]
      exact first
  · intro hran
    have hone := Carried.cons hran (.nil (h := h))
    rwa [List.append_nil] at hone

end Interpretation

end Prog

section Calls
variable {S : Sig} {Req E : Type}

/-- The calls of one thread, in order. -/
def callsOf (t : ℕ) : List (Label S Req E) → List S.Event
  | [] => []
  | .call u o r :: ls => if u = t then ⟨o, r⟩ :: callsOf t ls else callsOf t ls
  | .arrive _ _ :: ls => callsOf t ls
  | .env _ :: ls => callsOf t ls

/-- The labels of calls that one thread makes. -/
def callsBy (t : ℕ) (tr : List S.Event) : List (Label S Req E) := tr.map fun e => .call t e.1 e.2

@[simp] theorem callsOf_callsBy (t : ℕ) (tr : List S.Event) :
    callsOf t (callsBy t tr : List (Label S Req E)) = tr := by
  induction tr with
  | nil => rfl
  | cons e tr ih =>
    have hcons : callsOf t (callsBy t (e :: tr) : List (Label S Req E)) =
        e :: callsOf t (callsBy t tr) := if_pos rfl
    rw [hcons, ih]

theorem callsOf_append (t : ℕ) (ls ms : List (Label S Req E)) :
    callsOf t (ls ++ ms) = callsOf t ls ++ callsOf t ms := by
  induction ls with
  | nil => rfl
  | cons l ls ih =>
    cases l with
    | arrive u q => exact ih
    | env e => exact ih
    | call u o r =>
      by_cases hu : u = t
      · simp [callsOf, hu, ih]
      · simp [callsOf, hu, ih]

theorem mem_callsOf {t : ℕ} {ls : List (Label S Req E)} {o : S.Op} {r : S.Reply o} :
    (⟨o, r⟩ : S.Event) ∈ callsOf t ls ↔ .call t o r ∈ ls := by
  induction ls with
  | nil => simp [callsOf]
  | cons l ls ih =>
    cases l with
    | arrive u q => simp [callsOf, ih]
    | env e => simp [callsOf, ih]
    | call u o' r' =>
      by_cases hu : u = t
      · subst hu
        simp only [callsOf, if_pos, List.mem_cons, ih]
        refine or_congr ⟨fun h => ?_, fun h => ?_⟩ Iff.rfl <;> cases h <;> rfl
      · have hne : (.call t o r : Label S Req E) ≠ .call u o' r' := by
          intro h
          cases h
          exact hu rfl
        simp [callsOf, hu, ih, hne]

/-- What the calls of a thread cost. -/
def spent (cost : S.Op → ℕ) : List S.Event → ℕ
  | [] => 0
  | e :: tr => cost e.1 + spent cost tr

theorem spent_append (cost : S.Op → ℕ) (tr tr' : List S.Event) :
    spent cost (tr ++ tr') = spent cost tr + spent cost tr' := by
  induction tr with
  | nil => simp [spent]
  | cons e tr ih =>
    simp only [List.cons_append, spent, ih]
    omega

theorem spent_one (tr : List S.Event) : spent (fun _ => 1) tr = tr.length := by
  induction tr with
  | nil => rfl
  | cons e tr ih =>
    simp only [spent, ih, List.length_cons]
    omega

theorem callsOf_split {t : ℕ} {ls : List (Label S Req E)} {before after : List S.Event} {o : S.Op}
    {r : S.Reply o} (h : callsOf t ls = before ++ ⟨o, r⟩ :: after) :
    ∃ ms ns, ls = ms ++ .call t o r :: ns ∧ callsOf t ms = before ∧ callsOf t ns = after := by
  induction ls generalizing before with
  | nil => simp [callsOf] at h
  | cons l ls ih =>
    have hskip : callsOf t [l] = [] → ∃ ms ns, l :: ls = ms ++ .call t o r :: ns ∧
        callsOf t ms = before ∧ callsOf t ns = after := by
      intro hquiet
      rw [← List.singleton_append, callsOf_append, hquiet, List.nil_append] at h
      obtain ⟨ms, ns, hls, hms, hns⟩ := ih h
      refine ⟨l :: ms, ns, by rw [hls, List.cons_append], ?_, hns⟩
      rw [← List.singleton_append, callsOf_append, hquiet, List.nil_append, hms]
    cases l with
    | arrive u q => exact hskip rfl
    | env e => exact hskip rfl
    | call u o' r' =>
      by_cases hu : u = t
      · subst hu
        simp only [callsOf, if_pos] at h
        cases before with
        | nil =>
          obtain ⟨hevent, hrest⟩ := List.cons.inj h
          cases hevent
          exact ⟨[], ls, rfl, rfl, hrest⟩
        | cons first before =>
          obtain ⟨hevent, hrest⟩ := List.cons.inj h
          subst hevent
          obtain ⟨ms, ns, hls, hms, hns⟩ := ih hrest
          refine ⟨.call u o' r' :: ms, ns, by rw [hls, List.cons_append], ?_, hns⟩
          simp only [callsOf, if_pos, hms]
      · exact hskip (if_neg hu)

end Calls

section Budgets
variable {S : Sig} {α W E Req : Type} {Y : System S W E} {M : Machine S α} {start : Req → M.Phase}
  {G : Guard S α W E Req} {w : W} {c : Config M.Phase W} {ls : List (Label S Req E)}

/-- The budget rule: no request starts with more than `n`, and every call is paid for by the
phase that makes it. -/
theorem Trace.spent_le {cost : S.Op → ℕ} {left : M.Phase → ℕ} {n : ℕ}
    (hstart : ∀ q, left (start q) ≤ n)
    (hcall : ∀ ph o k r, M.view ph = .inr ⟨o, k⟩ → left (k r) + cost o ≤ left ph)
    (h : Trace (GuardedStep Y M start G) (.initial w) ls c) (t : ℕ) :
    spent cost (callsOf t ls) ≤ n := by
  have hinv : (c.threads t = none → spent cost (callsOf t ls) = 0) ∧
      ∀ ph, c.threads t = some ph → spent cost (callsOf t ls) + left ph ≤ n := by
    refine h.invariant (I := fun ls c => (c.threads t = none → spent cost (callsOf t ls) = 0) ∧
      ∀ ph, c.threads t = some ph → spent cost (callsOf t ls) + left ph ≤ n) ?_ ?_
    · exact ⟨fun _ => rfl, fun ph ht => by cases ht⟩
    · intro ls c l d _ ih hs
      have hkept : callsOf t [l] = [] → d.threads t = c.threads t →
          (d.threads t = none → spent cost (callsOf t (ls ++ [l])) = 0) ∧
          ∀ ph, d.threads t = some ph → spent cost (callsOf t (ls ++ [l])) + left ph ≤ n := by
        intro hquiet hsame
        rw [callsOf_append, hquiet, List.append_nil, hsame]
        exact ih
      cases hs.1 with
      | @arrive u q idle =>
        by_cases hu : t = u
        · subst hu
          rw [callsOf_append, spent_append, ih.1 idle]
          refine ⟨fun _ => rfl, fun ph ht => ?_⟩
          simp only [Function.update_self, Option.some.injEq] at ht
          have hbegin := hstart q
          rw [ht] at hbegin
          simpa [callsOf, spent] using hbegin
        · exact hkept rfl (Function.update_of_ne hu _ _)
      | @call u ph o k r w' here waits answer =>
        by_cases hu : t = u
        · subst hu
          refine ⟨fun hnone => by simp at hnone, fun ph' ht => ?_⟩
          simp only [Function.update_self, Option.some.injEq] at ht
          have hbefore := ih.2 ph here
          have hpaid := hcall ph o k r waits
          have hone : spent cost (callsOf t [(.call t o r : Label S Req E)]) = cost o := by
            simp [callsOf, spent]
          rw [callsOf_append, spent_append, hone, ← ht]
          omega
        · exact hkept (if_neg (Ne.symm hu)) (Function.update_of_ne hu _ _)
      | env he => exact hkept rfl rfl
  cases ht : c.threads t with
  | none =>
    rw [hinv.1 ht]
    exact Nat.zero_le n
  | some ph =>
    have hbudget := hinv.2 ph ht
    omega

end Budgets

section Runs
variable {S : Sig} {α W E Req : Type} {Y : System S W E} {start : Req → Prog S α}
  {G : Guard S α W E Req} {w : W} {c : Config (Prog S α) W} {ls : List (Label S Req E)} {t : ℕ}

theorem Trace.executions (h : Trace (GuardedStep Y (Prog.machine S α) start G) (.initial w) ls c) :
    ∀ t, (c.threads t = none → callsOf t ls = []) ∧ ∀ p, c.threads t = some p →
      ∃ q, .arrive t q ∈ ls ∧ Prog.After (start q) (callsOf t ls) p := by
  refine h.invariant (I := fun ls c => ∀ t, (c.threads t = none → callsOf t ls = []) ∧
    ∀ p, c.threads t = some p → ∃ q, .arrive t q ∈ ls ∧
      Prog.After (start q) (callsOf t ls) p) ?_ ?_
  · exact fun t => ⟨fun _ => rfl, fun p hp => by cases hp⟩
  · intro ls c l d _ ih hs t
    have hkept : callsOf t [l] = [] → d.threads t = c.threads t →
        (d.threads t = none → callsOf t (ls ++ [l]) = []) ∧ ∀ p, d.threads t = some p →
          ∃ q, .arrive t q ∈ ls ++ [l] ∧ Prog.After (start q) (callsOf t (ls ++ [l])) p := by
      intro hquiet hsame
      rw [callsOf_append, hquiet, List.append_nil, hsame]
      refine ⟨(ih t).1, fun p hp => ?_⟩
      obtain ⟨q, hq, hafter⟩ := (ih t).2 p hp
      exact ⟨q, List.mem_append_left _ hq, hafter⟩
    cases hs.1 with
    | @arrive u q idle =>
      by_cases hu : t = u
      · subst hu
        have hcalls : callsOf t (ls ++ [.arrive t q]) = [] := by
          rw [callsOf_append, (ih t).1 idle]
          rfl
        rw [hcalls]
        refine ⟨fun _ => rfl, fun p hp => ⟨q, List.mem_concat_self, ?_⟩⟩
        simp only [Function.update_self, Option.some.injEq] at hp
        exact hp ▸ .nil _
      · exact hkept rfl (Function.update_of_ne hu _ _)
    | @call u p o k r w' here waits answer =>
      by_cases hu : t = u
      · subst hu
        refine ⟨fun hnone => by simp at hnone, fun p' hp => ?_⟩
        obtain ⟨q, hq, hafter⟩ := (ih t).2 p here
        simp only [Function.update_self, Option.some.injEq] at hp
        cases p with
        | ret a => cases waits
        | call o' k' =>
          cases waits
          refine ⟨q, List.mem_append_left _ hq, ?_⟩
          have hone : callsOf t [(.call t o r : Label S Req E)] = [⟨o, r⟩] := if_pos rfl
          rw [callsOf_append, hone, ← hp]
          exact hafter.snoc r
      · exact hkept (if_neg (Ne.symm hu)) (Function.update_of_ne hu _ _)
    | env he => exact hkept rfl rfl

theorem Trace.result_ran (h : Trace (GuardedStep Y (Prog.machine S α) start G) (.initial w) ls c)
    {a : α} (ha : c.result (Prog.machine S α) t = some a) :
    ∃ q, .arrive t q ∈ ls ∧ Prog.Ran (start q) (callsOf t ls) a := by
  unfold Config.result at ha
  cases ht : c.threads t with
  | none => simp [ht] at ha
  | some p =>
    obtain ⟨q, hq, hafter⟩ := (h.executions t).2 p ht
    cases p with
    | ret b =>
      simp only [ht, progView, Sum.getLeft?_inl, Option.some.injEq] at ha
      subst ha
      exact ⟨q, hq, hafter.ran⟩
    | call o k => simp [ht, progView] at ha

theorem Trace.request_ran (h : Trace (GuardedStep Y (Prog.machine S α) start G) (.initial w) ls c)
    {q : Req} (hq : .arrive t q ∈ ls) {a : α} (ha : c.result (Prog.machine S α) t = some a) :
    Prog.Ran (start q) (callsOf t ls) a := by
  obtain ⟨q', hq', hran⟩ := h.result_ran ha
  rwa [h.arrived.2 t q' q hq' hq] at hran

/-- A call in the log is one that its thread's program makes, after the answers before it. -/
theorem Trace.call_after (h : Trace (GuardedStep Y (Prog.machine S α) start G) (.initial w) ls c)
    {before after : List (Label S Req E)} {o : S.Op} {r : S.Reply o}
    (hls : ls = before ++ .call t o r :: after) : ∃ q k, .arrive t q ∈ before ∧
      Prog.After (start q) (callsOf t before) (.call o k) := by
  subst hls
  obtain ⟨d, hbefore, hrest⟩ := Trace.append_iff.mp h
  obtain ⟨d', hs, -⟩ := Trace.cons_iff.mp hrest
  cases hs.1 with
  | @call _ p _ k _ _ here waits answer =>
    obtain ⟨q, hq, hafter⟩ := (hbefore.executions t).2 p here
    cases p with
    | ret b => cases waits
    | call o' k' =>
      cases waits
      exact ⟨q, k, hq, hafter⟩

/-- Execution that nobody disturbs: the calls of one thread, one after the other. -/
theorem Trace.undisturbed {p p' : Prog S α} {tr : List S.Event} {w' : W}
    (hG : ∀ w responses o r, G w responses (.call t o r)) (ht : c.threads t = some p)
    (hafter : Prog.After p tr p')
    (hworld : Trace Y.answers c.world tr w') :
    Trace (GuardedStep Y (Prog.machine S α) start G) c (callsBy t tr)
      ⟨w', Function.update c.threads t (some p')⟩ := by
  induction hafter generalizing c with
  | nil =>
    rw [Trace.nil_iff] at hworld
    rw [← hworld, ← ht, Function.update_eq_self]
    exact .nil c
  | @call o k r tr p' rest ih =>
    obtain ⟨w₁, hanswer, hworld⟩ := Trace.cons_iff.mp hworld
    have hnext := ih (c := ⟨w₁, Function.update c.threads t (some (k r))⟩)
      (Function.update_self _ _ _) hworld
    rw [Function.update_idem] at hnext
    exact Trace.cons_iff.mpr ⟨_, ⟨.call ht rfl hanswer, hG _ _ _ _⟩, hnext⟩

/-- A request that nobody disturbs, from its arrival on. -/
theorem Trace.begun {q : Req} {tr : List S.Event} {p : Prog S α} {w' : W}
    (hG : ∀ w responses l, G w responses l) (idle : c.threads t = none)
    (hafter : Prog.After (start q) tr p) (hworld : Trace Y.answers c.world tr w') :
    Trace (GuardedStep Y (Prog.machine S α) start G) c (.arrive t q :: callsBy t tr)
      ⟨w', Function.update c.threads t (some p)⟩ := by
  let arrived : Config (Prog S α) W := ⟨c.world, Function.update c.threads t (some (start q))⟩
  have hrest : Trace (GuardedStep Y (Prog.machine S α) start G) arrived (callsBy t tr)
      ⟨w', Function.update arrived.threads t (some p)⟩ :=
    Trace.undisturbed (fun w responses o r => hG w responses _) (Function.update_self _ _ _)
      hafter hworld
  rw [Function.update_idem] at hrest
  exact Trace.cons_iff.mpr ⟨_, ⟨.arrive idle, hG _ _ _⟩, hrest⟩

/-- A request that nobody disturbs, from its arrival to its result. -/
theorem Trace.request {q : Req} {tr : List S.Event} {a : α} {w' : W}
    (hG : ∀ w responses l, G w responses l) (idle : c.threads t = none)
    (hran : Prog.Ran (start q) tr a) (hworld : Trace Y.answers c.world tr w') :
    Trace (GuardedStep Y (Prog.machine S α) start G) c (.arrive t q :: callsBy t tr)
      ⟨w', Function.update c.threads t (some (.ret a))⟩ :=
  Trace.begun hG idle hran.after hworld

end Runs

end SvcAuth.Interleave
