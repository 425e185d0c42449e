import SvcAuth.InterleaveSolo
import Mathlib.Data.List.Basic

/-! One system on top of another: the calls of its threads are carried out by programs over
an interface below, and its world is what shows of the world below. A call above takes
effect at the last of the calls that carry it out. Then every run below is a run above. -/
namespace SvcAuth.Interleave

namespace Prog
variable {S T : Sig} {α : Type} {h : (o : S.Op) → Prog T (S.Reply o)} {p : Prog S α}
  {q : Prog T α} {es es' : List S.Event} {tr tr' : List T.Event}

/-- How a program above stands to the one that carries it out, which has made these calls
for the pending one. A call that is carried out without any call below does not last. -/
inductive Within (h : (o : S.Op) → Prog T (S.Reply o)) :
    List T.Event → Prog S α → Prog T α → Prop
  | ret (a : α) : Within h [] (.ret a) (.ret a)
  | call {o : S.Op} {k : S.Reply o → Prog S α} {tr : List T.Event} {o' : T.Op}
      {k' : T.Reply o' → Prog T (S.Reply o)} (inside : After (h o) tr (.call o' k')) :
      Within h tr (.call o k) (.call o' fun r' => k' r' >>= fun r => (k r).interpret h)

theorem Carried.append (first : Carried h es tr) (rest : Carried h es' tr') :
    Carried h (es ++ es') (tr ++ tr') := by
  induction first with
  | nil => exact rest
  | cons hran _ ih =>
    rw [List.cons_append, List.append_assoc]
    exact .cons hran ih

theorem Carried.split (hcarried : Carried h es tr) {o : S.Op} {r : S.Reply o}
    (hmem : (⟨o, r⟩ : S.Event) ∈ es) : ∃ before mid after, tr = before ++ (mid ++ after) ∧
      Ran (h o) mid r := by
  induction hcarried with
  | nil => cases hmem
  | @cons e es t₁ t₂ first rest ih =>
    rcases List.mem_cons.mp hmem with rfl | hmem
    · exact ⟨[], t₁, t₂, rfl, first⟩
    · obtain ⟨before, mid, after, rfl, hran⟩ := ih hmem
      exact ⟨t₁ ++ before, mid, after, by rw [List.append_assoc], hran⟩

theorem Carried.map {f : S.Event → T.Event} (hone : ∀ e ∈ es, Ran (h e.1) [f e] e.2) :
    Carried h es (es.map f) := by
  induction es with
  | nil => exact .nil
  | cons e es ih => exact .cons (hone e (.head _)) (ih fun e' he' => hone e' (.tail _ he'))

/-- A carried-out program that waits has carried out some calls, and waits inside the next. -/
theorem after_interpret {o' : T.Op} {k' : T.Reply o' → Prog T α}
    (hafter : After (p.interpret h) tr (.call o' k')) :
    ∃ es o k t₁ t₂ k₀, After p es (.call o k) ∧ Carried h es t₁ ∧ tr = t₁ ++ t₂ ∧
      After (h o) t₂ (.call o' k₀) := by
  induction p generalizing tr with
  | ret a => exact hafter.not_ret.elim
  | call o k ih =>
    rw [interpret_call] at hafter
    rcases after_bind hafter with ⟨k₀, hinside⟩ | ⟨r, t₁, t₂, rfl, hran, hrest⟩
    · exact ⟨[], o, k, [], tr, k₀, .nil _, .nil, rfl, hinside⟩
    · obtain ⟨es, o₁, k₁, u₁, u₂, k₀, hp, hcarried, rfl, hinside⟩ := ih r hrest
      exact ⟨⟨o, r⟩ :: es, o₁, k₁, t₁ ++ u₁, u₂, k₀, .call hp, .cons hran hcarried,
        (List.append_assoc _ _ _).symm, hinside⟩

theorem interpret_bind {β : Type} (p : Prog S α) (f : α → Prog S β) :
    (p >>= f).interpret h = p.interpret h >>= fun a => (f a).interpret h := by
  induction p with
  | ret a => rfl
  | call o k ih =>
    rw [call_bind, interpret_call, interpret_call, bind_assoc]
    congr 1
    funext r
    exact ih r

theorem interpret_interpret {U : Sig} {g : (o : T.Op) → Prog U (T.Reply o)} (p : Prog S α) :
    (p.interpret h).interpret g = p.interpret fun o => (h o).interpret g := by
  induction p with
  | ret a => rfl
  | call o k ih =>
    rw [interpret_call, interpret_bind, interpret_call]
    congr 1
    funext r
    exact ih r

/-- Each of these calls is carried out at once, without a call below. -/
def AtOnce (h : (o : S.Op) → Prog T (S.Reply o)) (es : List S.Event) : Prop :=
  ∀ e ∈ es, h e.1 = .ret e.2

theorem AtOnce.carried (hes : AtOnce h es) : Carried h es [] := by
  induction es with
  | nil => exact .nil
  | cons e es ih =>
    have hfirst : Ran (h e.1) [] e.2 := by
      rw [hes e (.head _)]
      exact .ret _
    exact .cons hfirst (ih fun e' he' => hes e' (.tail _ he'))

/-- The carrying program goes on to the next call below; the program above gets the answers
of all calls before it that need none. -/
theorem interpret_within (h : (o : S.Op) → Prog T (S.Reply o)) (p : Prog S α) :
    ∃ es q, After p es q ∧ AtOnce h es ∧ Within h [] q (p.interpret h) := by
  induction p with
  | ret a => exact ⟨[], .ret a, .nil _, by simp [AtOnce], .ret a⟩
  | call o k ih =>
    cases ho : h o with
    | ret r =>
      obtain ⟨es, q, hafter, hes, hwithin⟩ := ih r
      refine ⟨⟨o, r⟩ :: es, q, .call hafter, ?_, ?_⟩
      · intro e he
        rcases List.mem_cons.mp he with rfl | he
        · exact ho
        · exact hes e he
      · rw [interpret_call, ho]
        exact hwithin
    | call o' k' =>
      refine ⟨[], .call o k, .nil _, by simp [AtOnce], ?_⟩
      rw [interpret_call, ho]
      have hinside : After (h o) [] (.call o' k') := ho ▸ .nil _
      exact .call hinside

end Prog

section Views
variable {S T : Sig} {Req E F : Type}

/-- What comes to a system from outside: a request of a thread, or an event. -/
def Label.outside : Label S Req E → Option ((ℕ × Req) ⊕ E)
  | .arrive t q => some (.inl (t, q))
  | .call _ _ _ => none
  | .env e => some (.inr e)

/-- All that came from outside, in order. -/
def outside (ls : List (Label S Req E)) : List ((ℕ × Req) ⊕ E) := ls.filterMap Label.outside

/-- What shows above: every request, and the events that are seen there. -/
def shown (see : F → Option E) : (ℕ × Req) ⊕ F → Option ((ℕ × Req) ⊕ E)
  | .inl a => some (.inl a)
  | .inr f => (see f).map .inr

/-- Where every event is seen, all shows. -/
@[simp] theorem filterMap_shown_some (xs : List ((ℕ × Req) ⊕ E)) :
    xs.filterMap (shown some) = xs := by
  have hall : (shown some : (ℕ × Req) ⊕ E → Option ((ℕ × Req) ⊕ E)) = some := by
    funext x
    cases x <;> rfl
  rw [hall, List.filterMap_some]

theorem mem_outside {ls : List (Label S Req E)} {t : ℕ} {q : Req} :
    .inl (t, q) ∈ outside ls ↔ .arrive t q ∈ ls := by
  simp only [outside, List.mem_filterMap]
  constructor
  · rintro ⟨l, hl, hout⟩
    cases l with
    | arrive u q' =>
      cases hout
      exact hl
    | call u o r => cases hout
    | env e => cases hout
  · exact fun hl => ⟨_, hl, rfl⟩

theorem mem_outside_env {ls : List (Label S Req E)} {e : E} :
    .inr e ∈ outside ls ↔ .env e ∈ ls := by
  simp only [outside, List.mem_filterMap]
  constructor
  · rintro ⟨l, hl, hout⟩
    cases l with
    | arrive u q => cases hout
    | call u o r => cases hout
    | env e' =>
      cases hout
      exact hl
  · exact fun hl => ⟨_, hl, rfl⟩

theorem outside_append (ls ms : List (Label S Req E)) :
    outside (ls ++ ms) = outside ls ++ outside ms := List.filterMap_append

@[simp] theorem outside_callsBy (t : ℕ) (tr : List S.Event) :
    outside (callsBy t tr : List (Label S Req E)) = [] := by
  induction tr with
  | nil => rfl
  | cons e tr ih => exact ih

theorem callsOf_callsBy_other {t u : ℕ} (hu : u ≠ t) (tr : List S.Event) :
    callsOf u (callsBy t tr : List (Label S Req E)) = [] := by
  induction tr with
  | nil => rfl
  | cons e tr ih =>
    have hskip : callsOf u (callsBy t (e :: tr) : List (Label S Req E)) =
        callsOf u (callsBy t tr) := if_neg (Ne.symm hu)
    rw [hskip, ih]

end Views

section Systems
variable {S T : Sig} {α W V E F Req : Type} {Y : System S W E} {Z : System T V F}
  {h : (o : S.Op) → Prog T (S.Reply o)} {π : V → W} {see : F → Option E}
  {start : Req → Prog S α} {G : Guard S α W E Req} {H : Guard T α V F Req}

/-- The programs `h` carry out the calls of the system above in the world below. -/
structure CarriesOut (Y : System S W E) (Z : System T V F) (h : (o : S.Op) → Prog T (S.Reply o))
    (π : V → W) (see : F → Option E) : Prop where
  /-- What needs no call below leaves the world above as it is. -/
  at_once : ∀ {o : S.Op} {r : S.Reply o} (w : W), h o = .ret r → Y.exec w o r w
  /-- The last call takes effect above, and the calls before it do not show. -/
  call : ∀ {o : S.Op} {tr : List T.Event} {o' : T.Op} {k : T.Reply o' → Prog T (S.Reply o)}
    {r' : T.Reply o'} {v v' : V}, Prog.After (h o) tr (.call o' k) → Z.exec v o' r' v' →
    (∃ r, k r' = .ret r ∧ Y.exec (π v) o r (π v')) ∨
      (∃ o'' k', k r' = .call o'' k') ∧ π v' = π v
  env : ∀ {v v' : V} {f : F}, Z.env v f v' →
    (∃ e, see f = some e ∧ Y.env (π v) e (π v')) ∨ see f = none ∧ π v' = π v

/-- What an assumption below allows shows above as something another one allows. -/
structure GuardAbove (h : (o : S.Op) → Prog T (S.Reply o)) (G : Guard S α W E Req)
    (H : Guard T α V F Req) (π : V → W) (see : F → Option E) : Prop where
  arrive : ∀ {v responses t q}, H v responses (.arrive t q) → G (π v) responses (.arrive t q)
  at_once : ∀ {w responses t} {o : S.Op} {r : S.Reply o}, h o = .ret r →
    G w responses (.call t o r)
  call : ∀ {v responses t} {o : S.Op} {tr : List T.Event} {o' : T.Op}
    {k : T.Reply o' → Prog T (S.Reply o)} {r' : T.Reply o'} {r : S.Reply o},
    Prog.After (h o) tr (.call o' k) → k r' = .ret r → H v responses (.call t o' r') →
    G (π v) responses (.call t o r)
  env : ∀ {v responses f e}, see f = some e → H v responses (.env f) → G (π v) responses (.env e)

/-- A thread above beside the one that carries it out, with the calls both have made. -/
inductive Beside (h : (o : S.Op) → Prog T (S.Reply o)) :
    List S.Event → List T.Event → Option (Prog S α) → Option (Prog T α) → Prop
  | none : Beside h [] [] none none
  | some {es : List S.Event} {done tr : List T.Event} {p : Prog S α} {q : Prog T α}
      (carried : Prog.Carried h es done) (within : Prog.Within h tr p q) :
      Beside h es (done ++ tr) (some p) (some q)

/-- The system above with its log, beside the one below with its own. -/
structure Above (h : (o : S.Op) → Prog T (S.Reply o)) (π : V → W) (see : F → Option E)
    (ls : List (Label S Req E)) (c : Config (Prog S α) W) (ms : List (Label T Req F))
    (d : Config (Prog T α) V) : Prop where
  world : c.world = π d.world
  visible : outside ls = (outside ms).filterMap (shown see)
  threads : ∀ t, Beside h (callsOf t ls) (callsOf t ms) (c.threads t) (d.threads t)

variable {ls : List (Label S Req E)} {ms : List (Label T Req F)} {m : Label T Req F}
  {c : Config (Prog S α) W} {d d' : Config (Prog T α) V} {t : ℕ}

theorem Above.result (habove : Above h π see ls c ms d) :
    c.result (Prog.machine S α) = d.result (Prog.machine T α) := by
  funext t
  have hthread := habove.threads t
  unfold Config.result
  generalize c.threads t = x, d.threads t = y, callsOf t ls = es, callsOf t ms = tr at hthread
  cases hthread with
  | none => rfl
  | some _ within =>
    cases within with
    | ret a => rfl
    | call inside => rfl

/-- Calls that need none below are answered above one after the other. -/
theorem answered_at_once (hC : CarriesOut Y Z h π see) (hG : GuardAbove h G H π see)
    {p q : Prog S α} {es : List S.Event} (ht : c.threads t = some p) (hafter : Prog.After p es q)
    (hes : Prog.AtOnce h es) :
    Trace (GuardedStep Y (Prog.machine S α) start G) c (callsBy t es)
      ⟨c.world, Function.update c.threads t (some q)⟩ := by
  induction hafter generalizing c with
  | nil p =>
    rw [← ht, Function.update_eq_self]
    exact .nil c
  | @call o k r tr q rest ih =>
    have hfirst := hes _ (.head _)
    have hnext := ih (c := ⟨c.world, Function.update c.threads t (some (k r))⟩)
      (Function.update_self _ _ _) fun e he => hes e (.tail _ he)
    rw [Function.update_idem] at hnext
    exact Trace.cons_iff.mpr
      ⟨_, ⟨.call ht rfl (hC.at_once _ hfirst), hG.at_once hfirst⟩, hnext⟩

/-- A thread above goes on to its next call that needs one below. -/
theorem catchUp (hC : CarriesOut Y Z h π see) (hG : GuardAbove h G H π see) {p : Prog S α}
    (ht : c.threads t = some p) :
    ∃ es q, Trace (GuardedStep Y (Prog.machine S α) start G) c (callsBy t es)
        ⟨c.world, Function.update c.threads t (some q)⟩ ∧
      Prog.Carried h es [] ∧ Prog.Within h [] q (p.interpret h) := by
  obtain ⟨es, q, hafter, hes, hwithin⟩ := Prog.interpret_within h p
  exact ⟨es, q, answered_at_once hC hG ht hafter hes, hes.carried, hwithin⟩

/-- Whatever a thread does, the calls of the others stay as they are. -/
theorem Above.others (habove : Above h π see ls c ms d) {ns : List (Label S Req E)}
    {p : Prog S α} {q : Prog T α} (hns : ∀ u, u ≠ t → callsOf u ns = [])
    (hm : ∀ u, u ≠ t → callsOf u [m] = [])
    (hself : Beside h (callsOf t (ls ++ ns)) (callsOf t (ms ++ [m])) (some p) (some q)) (u : ℕ) :
    Beside h (callsOf u (ls ++ ns)) (callsOf u (ms ++ [m]))
      (Function.update c.threads t (some p) u) (Function.update d.threads t (some q) u) := by
  by_cases hu : u = t
  · subst hu
    rw [Function.update_self, Function.update_self]
    exact hself
  · rw [callsOf_append, callsOf_append, hns u hu, hm u hu, List.append_nil, List.append_nil,
      Function.update_of_ne hu, Function.update_of_ne hu]
    exact habove.threads u

/-- A request arrives above too, and goes on to its first call that needs one below. -/
theorem Above.arrive (hC : CarriesOut Y Z h π see) (hG : GuardAbove h G H π see)
    (habove : Above h π see ls c ms d) {q : Req} (idle : d.threads t = none)
    (hallowed : H d.world (d.result (Prog.machine T α)) (.arrive t q)) :
    ∃ ns c', Trace (GuardedStep Y (Prog.machine S α) start G) c ns c' ∧
      Above h π see (ls ++ ns) c' (ms ++ [.arrive t q])
        ⟨d.world, Function.update d.threads t (some ((start q).interpret h))⟩ := by
  have hresult := habove.result
  have hthread := habove.threads t
  rw [idle] at hthread
  generalize hx : c.threads t = x, hes : callsOf t ls = es, htr : callsOf t ms = tr at hthread
  cases hthread
  let begun : Config (Prog S α) W := ⟨c.world, Function.update c.threads t (some (start q))⟩
  obtain ⟨es, p, htrace, hcarried, hwithin⟩ :=
    catchUp hC hG (show begun.threads t = some (start q) from Function.update_self _ _ _)
  rw [Function.update_idem] at htrace
  have hallowed' := hG.arrive hallowed
  rw [← habove.world, ← hresult] at hallowed'
  refine ⟨.arrive t q :: callsBy t es, _, Trace.cons_iff.mpr ⟨_, ⟨.arrive hx, hallowed'⟩, htrace⟩,
    habove.world, ?_, habove.others (fun u hu => callsOf_callsBy_other hu es) (fun _ _ => rfl) ?_⟩
  · have hnew : outside (.arrive t q :: callsBy t es : List (Label S Req E)) =
        .inl (t, q) :: outside (callsBy t es) := rfl
    rw [outside_append, outside_append, List.filterMap_append, habove.visible, hnew,
      outside_callsBy]
    rfl
  · have hcalls : callsOf t (.arrive t q :: callsBy t es : List (Label S Req E)) = es :=
      callsOf_callsBy t es
    have hquiet : callsOf t [(.arrive t q : Label T Req F)] = [] := rfl
    rw [callsOf_append, callsOf_append, hes, htr, hcalls, hquiet]
    exact .some hcarried hwithin

/-- A call below is the last that carries out a call above, or one before it. -/
theorem Above.call (hC : CarriesOut Y Z h π see) (hG : GuardAbove h G H π see)
    (habove : Above h π see ls c ms d) {o' : T.Op} {k' : T.Reply o' → Prog T α}
    {r' : T.Reply o'} {v' : V} (here : d.threads t = some (.call o' k'))
    (answer : Z.exec d.world o' r' v')
    (hallowed : H d.world (d.result (Prog.machine T α)) (.call t o' r')) :
    ∃ ns c', Trace (GuardedStep Y (Prog.machine S α) start G) c ns c' ∧
      Above h π see (ls ++ ns) c' (ms ++ [.call t o' r'])
        ⟨v', Function.update d.threads t (some (k' r'))⟩ := by
  have hresult := habove.result
  have hthread := habove.threads t
  rw [here] at hthread
  generalize hx : c.threads t = x, hes : callsOf t ls = es, htr : callsOf t ms = tr at hthread
  have hone : callsOf t [(.call t o' r' : Label T Req F)] = [⟨o', r'⟩] := if_pos rfl
  have hother : ∀ u, u ≠ t → callsOf u [(.call t o' r' : Label T Req F)] = [] :=
    fun u hu => if_neg (Ne.symm hu)
  have hquiet : outside [(.call t o' r' : Label T Req F)] = [] := rfl
  cases hthread with
  | @some _ done tr _ _ carried within =>
    cases within with
    | @call o k _ _ k₀ inside =>
      rcases hC.call inside answer with ⟨r, hlast, hexec⟩ | ⟨⟨o'', k'', hnext⟩, hsame⟩
      · -- the call above has its answer, and the thread goes on to its next call
        have hallowed' := hG.call inside hlast hallowed
        rw [← habove.world] at hexec
        rw [← habove.world, ← hresult] at hallowed'
        have hran : Prog.Ran (h o) (tr ++ [⟨o', r'⟩]) r := by
          have hafter := inside.snoc r'
          rw [hlast] at hafter
          exact hafter.ran
        let answered : Config (Prog S α) W := ⟨π v', Function.update c.threads t (some (k r))⟩
        obtain ⟨es', p, htrace, hcarried, hwithin⟩ :=
          catchUp hC hG (show answered.threads t = some (k r) from Function.update_self _ _ _)
        rw [Function.update_idem] at htrace
        have hcall : Prog.Carried h (⟨o, r⟩ :: es') ((tr ++ [⟨o', r'⟩]) ++ []) :=
          .cons hran hcarried
        have hall := carried.append hcall
        rw [List.append_nil] at hall
        have hnow : k₀ r' >>= (fun r => (k r).interpret h) = (k r).interpret h := by
          rw [hlast]
          rfl
        refine ⟨callsBy t (⟨o, r⟩ :: es'), _,
          Trace.cons_iff.mpr ⟨_, ⟨.call hx rfl hexec, hallowed'⟩, htrace⟩, rfl, ?_,
          habove.others (fun u hu => callsOf_callsBy_other hu _) hother ?_⟩
        · rw [outside_append, outside_append, List.filterMap_append, habove.visible,
            outside_callsBy, hquiet]
          rfl
        · have hbeside := Beside.some hall hwithin
          rw [callsOf_append, callsOf_append, hes, htr, callsOf_callsBy, hone, List.append_assoc]
          simp only [hnow]
          rwa [List.append_nil] at hbeside
      · -- the call above is still pending
        have hstill := inside.snoc r'
        rw [hnext] at hstill
        refine ⟨[], c, .nil c, by rw [habove.world, hsame], ?_, fun u => ?_⟩
        · rw [outside_append, outside_append, List.filterMap_append, habove.visible, hquiet]
          rfl
        · have hsame : c.threads = Function.update c.threads t (some (.call o k)) := by
            rw [← hx, Function.update_eq_self]
          rw [hsame]
          refine habove.others (fun _ _ => rfl) hother ?_ u
          rw [callsOf_append, callsOf_append, hes, htr, hone, List.append_assoc]
          have hquiet' : callsOf t ([] : List (Label S Req E)) = [] := rfl
          rw [hquiet', List.append_nil]
          simp only [hnext]
          exact .some carried (.call hstill)

/-- One step below is some steps above, or none. -/
theorem Above.step (hC : CarriesOut Y Z h π see) (hG : GuardAbove h G H π see)
    (habove : Above h π see ls c ms d)
    (hs : GuardedStep Z (Prog.machine T α) (fun q => (start q).interpret h) H d m d') :
    ∃ ns c', Trace (GuardedStep Y (Prog.machine S α) start G) c ns c' ∧
      Above h π see (ls ++ ns) c' (ms ++ [m]) d' := by
  obtain ⟨hs, hallowed⟩ := hs
  have hresult := habove.result
  obtain ⟨v', threads'⟩ := d'
  rcases hs.inv with ⟨t, q, rfl, idle, rfl, rfl⟩ | ⟨t, q, o', k', r', rfl, here, waits, answer, rfl⟩ |
    ⟨f, rfl, henv, rfl⟩
  · exact habove.arrive hC hG idle hallowed
  · cases q with
    | ret a => cases waits
    | call o'' k'' =>
      cases waits
      exact habove.call hC hG here answer hallowed
  · have hcalls : ∀ u, callsOf u [(.env f : Label T Req F)] = [] := fun _ => rfl
    have hseen : outside [(.env f : Label T Req F)] = [.inr f] := rfl
    rcases hC.env henv with ⟨e, hsee, he⟩ | ⟨hsee, hsame⟩
    · have hallowed' := hG.env hsee hallowed
      rw [← habove.world] at he
      rw [← habove.world, ← hresult] at hallowed'
      refine ⟨[.env e], ⟨π v', c.threads⟩, .one ⟨.env he, hallowed'⟩, rfl, ?_, fun u => ?_⟩
      · have hnew : outside [(.env e : Label S Req E)] = [.inr e] := rfl
        rw [outside_append, outside_append, List.filterMap_append, habove.visible, hseen, hnew]
        simp [shown, hsee]
      · have hquiet : callsOf u [(.env e : Label S Req E)] = [] := rfl
        rw [callsOf_append, callsOf_append, hcalls, hquiet, List.append_nil, List.append_nil]
        exact habove.threads u
    · refine ⟨[], c, .nil c, by rw [habove.world, hsame], ?_, fun u => ?_⟩
      · rw [outside_append, outside_append, List.filterMap_append, habove.visible, hseen]
        simp [shown, hsee, outside]
      · rw [List.append_nil, callsOf_append, hcalls, List.append_nil]
        exact habove.threads u

/-- A run below goes on above too. -/
theorem Above.run (hC : CarriesOut Y Z h π see) (hG : GuardAbove h G H π see)
    (habove : Above h π see ls c ms d) {more : List (Label T Req F)}
    (hrun : Trace (GuardedStep Z (Prog.machine T α) (fun q => (start q).interpret h) H) d more d') :
    ∃ ns c', Trace (GuardedStep Y (Prog.machine S α) start G) c ns c' ∧
      Above h π see (ls ++ ns) c' (ms ++ more) d' := by
  induction hrun with
  | nil => exact ⟨[], c, .nil c, by rwa [List.append_nil, List.append_nil]⟩
  | snoc prior last ih =>
    obtain ⟨ns, c₁, hns, habove₁⟩ := ih
    obtain ⟨ns', c₂, hsteps, habove₂⟩ := habove₁.step hC hG last
    refine ⟨ns ++ ns', c₂, hns.trans hsteps, ?_⟩
    rwa [← List.append_assoc, ← List.append_assoc]

/-- Every run below is a run above. -/
theorem Trace.above (hC : CarriesOut Y Z h π see) (hG : GuardAbove h G H π see) {v : V}
    (hrun : Trace (GuardedStep Z (Prog.machine T α) (fun q => (start q).interpret h) H)
      (.initial v) ms d) :
    ∃ ls c, Trace (GuardedStep Y (Prog.machine S α) start G) (.initial (π v)) ls c ∧
      Above h π see ls c ms d := by
  have hnone : Above h π see ([] : List (Label S Req E))
      (⟨π v, fun _ => none⟩ : Config (Prog S α) W) [] (.initial v) := ⟨rfl, rfl, fun _ => .none⟩
  exact hnone.run hC hG hrun

theorem Above.idle (habove : Above h π see ls c ms d) (ht : d.threads t = none) :
    c.threads t = none := by
  have hthread := habove.threads t
  rw [ht] at hthread
  generalize c.threads t = x, callsOf t ls = es, callsOf t ms = tr at hthread
  cases hthread
  rfl

theorem Above.carried (habove : Above h π see ls c ms d) {o : S.Op} {r : S.Reply o}
    (hcall : .call t o r ∈ ls) : ∃ before mid after, callsOf t ms = before ++ (mid ++ after) ∧
      Prog.Ran (h o) mid r := by
  have hthread := habove.threads t
  have hmem := mem_callsOf.mpr hcall
  generalize c.threads t = x, d.threads t = y, callsOf t ls = es, callsOf t ms = tr
    at hthread hmem
  cases hthread with
  | none => cases hmem
  | @some _ done tr _ _ carried within =>
    obtain ⟨before, mid, after, rfl, hran⟩ := carried.split hmem
    exact ⟨before, mid, after ++ tr, by simp, hran⟩

theorem Above.arrived (habove : Above h π see ls c ms d) {q : Req} :
    .arrive t q ∈ ls ↔ .arrive t q ∈ ms := by
  rw [← mem_outside, ← mem_outside, habove.visible, List.mem_filterMap]
  constructor
  · rintro ⟨a | f, hmem, hshown⟩
    · cases hshown
      exact hmem
    · simp [shown] at hshown
  · exact fun hmem => ⟨_, hmem, rfl⟩

end Systems

end SvcAuth.Interleave
