import SvcAuth.InterleaveSolo
import SvcAuth.IdTokens

/-! The id_tokens of one provider, any number of them in flight over its cached keys, the
time of their last refresh and the clock. The cooldown keeps the fetches apart as long as
requests pass its check in turn; a failed or a slow fetch leaves the check open. -/
namespace SvcAuth
open Interleave JsonWebToken

structure ProviderState where
  jwks : JwkSet
  lastRefresh : ℕ
  clock : ℕ

/-- How locks, clock and identity provider answer. A fetch may end in any way; it gets its
answer when it starts, and the time it takes passes before its request goes on. -/
inductive OidcAnswers : ProviderState → (o : OidcOp) → o.Reply → ProviderState → Prop
  | readJwks (w : ProviderState) (p : OidcProvider) : OidcAnswers w (.readJwks p) w.jwks w
  | elapsed (w : ProviderState) (p : OidcProvider) :
      OidcAnswers w (.elapsed p) (w.clock - w.lastRefresh) w
  | fetchJwks (w : ProviderState) (uri : String) (r : Except FetchError JwkSet) :
      OidcAnswers w (.fetchJwks uri) r w
  | writeJwks (w : ProviderState) (p : OidcProvider) (jwks : JwkSet) :
      OidcAnswers w (.writeJwks p jwks) () { w with jwks := jwks }
  | resetLastRefresh (w : ProviderState) (p : OidcProvider) :
      OidcAnswers w (.resetLastRefresh p) () { w with lastRefresh := w.clock }
  | now (w : ProviderState) (seconds : ℕ) : OidcAnswers w .now seconds w

/-- The monotonic clock goes on, in the unit of the cooldown. -/
def TimePasses (w : ProviderState) (ticks : ℕ) (w' : ProviderState) : Prop :=
  w' = { w with clock := w.clock + ticks }

def oneProvider : System OidcCalls ProviderState ℕ := ⟨OidcAnswers, TimePasses⟩

abbrev OidcEvent := Label OidcCalls String ℕ

abbrev OidcState := Config (OidcAction (Except String OidcClaims)) ProviderState

/-- What happens between two states of the provider; a request is an id_token. -/
abbrev OidcSegment (D : Deps) (p : OidcProvider) : OidcState → List OidcEvent → OidcState → Prop :=
  Trace (GuardedStep oneProvider (Prog.machine OidcCalls _) (verifyIdToken D [p])
    fun _ _ _ => True)

/-- A run after boot, which has just fetched the keys. -/
abbrev OidcRun (D : Deps) (p : OidcProvider) (jwks : JwkSet) (clock : ℕ) :
    List OidcEvent → OidcState → Prop :=
  OidcSegment D p (.initial ⟨jwks, clock, clock⟩)

/-- The time that passes. -/
def ticks : List OidcEvent → ℕ
  | [] => 0
  | .env n :: ls => n + ticks ls
  | .arrive _ _ :: ls => ticks ls
  | .call _ _ _ :: ls => ticks ls

/-- Any two fetches are started at least a cooldown apart. -/
def Spaced (p : OidcProvider) (ls : List OidcEvent) : Prop :=
  ∀ before t uri r between u uri' r' after,
    ls = before ++ .call t (.fetchJwks uri) r ::
      (between ++ .call u (.fetchJwks uri') r' :: after) → p.refreshCooldown ≤ ticks between

/-- Request `t` got past the cooldown check. -/
def Passed (p : OidcProvider) (ls : List OidcEvent) (t : ℕ) : Prop :=
  ∃ e : ℕ, .call t (.elapsed p) e ∈ ls ∧ p.refreshCooldown ≤ e

/-- The fetch of request `t` no longer matters for the cooldown: it is recorded as the last
refresh, or it was started a cooldown ago. -/
def Recorded (p : OidcProvider) (ls : List OidcEvent) (t : ℕ) : Prop :=
  .call t (.resetLastRefresh p) () ∈ ls ∨ ∃ before r after,
    ls = before ++ .call t (.fetchJwks p.jwksUri) r :: after ∧ p.refreshCooldown ≤ ticks after

/-- If this step passes the cooldown check, all who passed it before are recorded. -/
def InTurn (p : OidcProvider) (before : List OidcEvent) (l : OidcEvent) : Prop :=
  ∀ t (e : ℕ), l = .call t (.elapsed p) e → p.refreshCooldown ≤ e →
    ∀ u, Passed p before u → Recorded p before u

/-- All steps are in turn. -/
def Orderly (p : OidcProvider) (ls : List OidcEvent) : Prop :=
  ∀ before l after, ls = before ++ l :: after → InTurn p before l

section Log
variable {p : OidcProvider} {ls ms : List OidcEvent} {l : OidcEvent} {t : ℕ}

theorem ticks_append (ls ms : List OidcEvent) : ticks (ls ++ ms) = ticks ls + ticks ms := by
  induction ls with
  | nil => simp [ticks]
  | cons l ls ih =>
    cases l with
    | env n => simp [ticks, ih, Nat.add_assoc]
    | arrive t q => exact ih
    | call t o r => exact ih

theorem ticks_suffix (h : ls <:+ ms) : ticks ls ≤ ticks ms := by
  obtain ⟨before, rfl⟩ := h
  rw [ticks_append]
  omega

theorem suffix_of_late {α : Type} {a b c d : List α} {x y : α}
    (h : a ++ x :: b = c ++ y :: d) (hy : y ∉ a) : d <:+ b := by
  rcases List.append_eq_append_iff.mp h with ⟨z, rfl, hz⟩ | ⟨z, rfl, hz⟩
  · cases z with
    | nil =>
      cases hz
      exact List.suffix_refl _
    | cons first rest =>
      cases hz
      exact ⟨rest ++ [y], by simp⟩
  · cases z with
    | nil =>
      cases hz
      exact List.suffix_refl _
    | cons first rest =>
      cases hz
      exact absurd (List.mem_append_right _ (.head _)) hy

theorem orderly_nil : Orderly p [] := by
  intro before l after h
  simp at h

theorem orderly_snoc (h : Orderly p ls) (hl : InTurn p ls l) : Orderly p (ls ++ [l]) := by
  intro before m after hsplit
  rcases List.eq_nil_or_concat after with rfl | ⟨init, last, rfl⟩
  · obtain ⟨rfl, hlast⟩ := List.append_inj' hsplit rfl
    cases hlast
    exact hl
  · rw [List.concat_eq_append, ← List.cons_append, ← List.append_assoc] at hsplit
    exact h before m init (List.append_inj' hsplit rfl).1

/-- This step checks the cooldown. -/
def checks : OidcEvent → Bool
  | .call _ (.elapsed _) _ => true
  | _ => false

theorem not_checked (hms : ms.all (fun l => !checks l) = true) (t e : ℕ) :
    .call t (.elapsed p) e ∉ ms := by
  intro hmem
  have hnone := List.all_eq_true.mp hms _ hmem
  cases hnone

theorem orderly_append (h : Orderly p ls) (hms : ms.all (fun l => !checks l) = true) :
    Orderly p (ls ++ ms) := by
  induction ms using List.reverseRecOn with
  | nil => simpa using h
  | append_singleton ms l ih =>
    rw [List.all_append, Bool.and_eq_true] at hms
    rw [← List.append_assoc]
    refine orderly_snoc (ih hms.1) fun t e heq => ?_
    have hchecked := List.all_eq_true.mp hms.2 l (.head _)
    rw [heq] at hchecked
    cases hchecked

theorem Recorded.made (h : Recorded p ls t) : .call t (.resetLastRefresh p) () ∈ ls ∨
    ∃ r, .call t (.fetchJwks p.jwksUri) r ∈ ls := by
  rcases h with hreset | ⟨before, r, after, rfl, -⟩
  · exact .inl hreset
  · exact .inr ⟨r, List.mem_append_right _ (.head _)⟩

end Log

section Validator
variable {D : Deps} {p : OidcProvider} {tr : List OidcCalls.Event} {uri : String}

/-- The calls a request has made when it is about to fetch. -/
def BeforeFetch (p : OidcProvider) (tr : List OidcCalls.Event) : Prop :=
  ∃ (jwks : JwkSet) (e : ℕ), tr = [⟨.readJwks p, jwks⟩, ⟨.elapsed p, e⟩] ∧ p.refreshCooldown ≤ e

/-- How far a refresh has come that is about to make this call. -/
inductive Refreshing (p : OidcProvider) : List OidcCalls.Event → OidcOp → Prop
  | begun : Refreshing p [] (.elapsed p)
  | late {e : ℕ} (passed : p.refreshCooldown ≤ e) :
      Refreshing p [⟨.elapsed p, e⟩] (.fetchJwks p.jwksUri)
  | fetched {e : ℕ} {jwks : JwkSet} (passed : p.refreshCooldown ≤ e) :
      Refreshing p [⟨.elapsed p, e⟩, ⟨.fetchJwks p.jwksUri, .ok jwks⟩] (.writeJwks p jwks)
  | written {e : ℕ} {jwks : JwkSet} (passed : p.refreshCooldown ≤ e) :
      Refreshing p [⟨.elapsed p, e⟩, ⟨.fetchJwks p.jwksUri, .ok jwks⟩, ⟨.writeJwks p jwks, ()⟩]
        (.resetLastRefresh p)

theorem refreshJwks_after {o : OidcOp} {k : o.Reply → OidcAction (Except String Unit)}
    (h : Prog.After p.refreshJwks tr (.call o k)) : Refreshing p tr o := by
  rw [refreshJwks_eq] at h
  rcases Prog.after_call.mp h with ⟨rfl, heq⟩ | ⟨e, rest, rfl, h₁⟩
  · cases heq
    exact .begun
  · split at h₁
    · exact h₁.not_ret.elim
    · rename_i hpassed
      rcases Prog.after_call.mp h₁ with ⟨rfl, heq⟩ | ⟨r, rest, rfl, h₂⟩
      · cases heq
        exact .late (Nat.le_of_not_lt hpassed)
      · rcases r with (failure | failure) | newKeys
        · exact h₂.not_ret.elim
        · exact h₂.not_ret.elim
        · rcases Prog.after_call.mp h₂ with ⟨rfl, heq⟩ | ⟨_, rest, rfl, h₃⟩
          · cases heq
            exact .fetched (Nat.le_of_not_lt hpassed)
          · rcases Prog.after_call.mp h₃ with ⟨rfl, heq⟩ | ⟨_, rest, rfl, h₄⟩
            · cases heq
              exact .written (Nat.le_of_not_lt hpassed)
            · exact h₄.not_ret.elim

theorem Refreshing.reached {o : OidcOp} (h : Refreshing p tr o) :
    ∃ k, Prog.After p.refreshJwks tr (.call o k) := by
  rw [refreshJwks_eq]
  cases h with
  | begun => exact ⟨_, .nil _⟩
  | late passed =>
    apply Exists.intro
    apply Prog.After.call
    rw [if_neg (Nat.not_lt.mpr passed)]
    exact .nil _
  | fetched passed =>
    apply Exists.intro
    apply Prog.After.call
    rw [if_neg (Nat.not_lt.mpr passed)]
    exact .call (.nil _)
  | written passed =>
    apply Exists.intro
    apply Prog.After.call
    rw [if_neg (Nat.not_lt.mpr passed)]
    exact .call (.call (.nil _))

/-- Between its two looks at the cache a request does nothing but refresh. -/
theorem resolveKey_after {kid : String} {o : OidcOp} {k : o.Reply → OidcAction (Except String Jwk)}
    (h : Prog.After (p.resolveKey kid) tr (.call o k)) (hne : .readJwks p ≠ o) :
    ∃ (old : JwkSet) (rest : List OidcCalls.Event), tr = ⟨.readJwks p, old⟩ :: rest ∧
      Refreshing p rest o := by
  rw [OidcProvider.resolveKey, readJwks_bind] at h
  obtain ⟨old, rest, rfl, h₁⟩ := h.answered hne
  refine ⟨old, rest, rfl, ?_⟩
  split at h₁
  · exact h₁.not_ret.elim
  · rcases Prog.after_bind h₁ with ⟨k', h₂⟩ | ⟨r, t₁, t₂, rfl, -, h₂⟩
    · exact refreshJwks_after h₂
    · cases r with
      | error e => exact h₂.not_ret.elim
      | ok u =>
        simp only [readJwks_bind] at h₂
        obtain ⟨now, rest, rfl, h₃⟩ := h₂.answered hne
        split at h₃ <;> exact h₃.not_ret.elim

theorem resolveKey_fetch {kid : String}
    {k : Except FetchError JwkSet → OidcAction (Except String Jwk)}
    (h : Prog.After (p.resolveKey kid) tr (.call (.fetchJwks uri) k)) :
    uri = p.jwksUri ∧ BeforeFetch p tr := by
  obtain ⟨old, rest, rfl, hrest⟩ := resolveKey_after h (by simp)
  cases hrest with
  | late passed => exact ⟨rfl, old, _, rfl, passed⟩

theorem resolve_fetch {kid : Option String}
    {k : Except FetchError JwkSet → OidcAction (Except String Jwk)}
    (h : Prog.After (p.resolve kid) tr (.call (.fetchJwks uri) k)) :
    uri = p.jwksUri ∧ BeforeFetch p tr := by
  cases kid with
  | some kid => exact resolveKey_fetch h
  | none =>
    rw [OidcProvider.resolve, OidcProvider.resolveSingleKey, readJwks_bind] at h
    obtain ⟨jwks, rest, rfl, h₁⟩ := h.answered (by simp)
    split at h₁ <;> exact h₁.not_ret.elim

/-- A request fetches right behind the cooldown check it passed. -/
theorem verifyIdToken_fetch {idToken : String}
    {k : Except FetchError JwkSet → OidcAction (Except String OidcClaims)}
    (h : Prog.After (verifyIdToken D [p] idToken) tr (.call (.fetchJwks uri) k)) :
    uri = p.jwksUri ∧ BeforeFetch p tr := by
  rcases verifyIdToken_cases D [p] idToken with
    ⟨payload, header, provider, -, -, hselected, hrouted⟩ | ⟨e, hrefused⟩
  · have hprovider : provider = p := List.mem_singleton.mp (selectProvider_some hselected).1
    rw [hrouted, hprovider] at h
    rcases Prog.after_bind h with ⟨k', h₁⟩ | ⟨r, t₁, t₂, rfl, -, h₁⟩
    · exact resolve_fetch h₁
    · -- what is left of the request only reads the clock
      cases r with
      | error e => exact h₁.not_ret.elim
      | ok jwk =>
        simp only [judge] at h₁
        split at h₁
        · exact h₁.not_ret.elim
        · obtain ⟨now, rest, rfl, h₂⟩ := h₁.answered (by simp)
          exact h₂.not_ret.elim
  · rw [hrefused] at h
    exact h.not_ret.elim

end Validator

section Runs
variable {D : Deps} {p : OidcProvider} {jwks : JwkSet} {clock t : ℕ}
  {ls before after : List OidcEvent} {c d : OidcState} {uri : String}
  {r : Except FetchError JwkSet}

theorem OidcSegment.time (h : OidcSegment D p c ls d) {moment : ℕ}
    (hlast : moment ≤ c.world.lastRefresh) (hclock : moment ≤ c.world.clock) :
    moment ≤ d.world.lastRefresh ∧ d.world.clock = c.world.clock + ticks ls := by
  induction h with
  | nil => exact ⟨hlast, rfl⟩
  | @snoc d e ls l prior last ih =>
    obtain ⟨hlast', hclock'⟩ := ih
    rw [ticks_append]
    rcases last.1.inv with ⟨t, q, rfl, -, hw, -⟩ | ⟨t, ph, o, k, r, rfl, -, -, hw, -⟩ |
      ⟨n, rfl, hw, -⟩
    · rw [hw]
      exact ⟨hlast', hclock'⟩
    · generalize e.world = w at hw ⊢
      cases hw with
      | resetLastRefresh =>
        refine ⟨?_, hclock'⟩
        simp only
        omega
      | _ => exact ⟨hlast', hclock'⟩
    · rw [hw]
      refine ⟨hlast', ?_⟩
      simp only [ticks]
      omega

/-- A request that starts a fetch has passed the check, and made no call since. -/
theorem OidcRun.fetching (h : OidcRun D p jwks clock ls c)
    (hls : ls = before ++ .call t (.fetchJwks uri) r :: after) :
    uri = p.jwksUri ∧ Passed p before t ∧ .call t (.resetLastRefresh p) () ∉ before ∧
      ∀ uri' r', .call t (.fetchJwks uri') r' ∉ before := by
  obtain ⟨q, k, -, hafter⟩ := Trace.call_after h hls
  obtain ⟨rfl, jwks', e, hcalls, hpassed⟩ := verifyIdToken_fetch hafter
  refine ⟨rfl, ⟨e, mem_callsOf.mp ?_, hpassed⟩, fun hreset => ?_, fun uri' r' hfetch => ?_⟩
  · rw [hcalls]
    exact .tail _ (.head _)
  · have hmem := mem_callsOf.mpr hreset
    simp only [hcalls, List.mem_cons, List.not_mem_nil, or_false] at hmem
    rcases hmem with heq | heq <;> cases heq
  · have hmem := mem_callsOf.mpr hfetch
    simp only [hcalls, List.mem_cons, List.not_mem_nil, or_false] at hmem
    rcases hmem with heq | heq <;> cases heq

theorem OidcRun.unrecorded (h : OidcRun D p jwks clock ls c)
    (hls : ls = before ++ .call t (.fetchJwks uri) r :: after) {past : List OidcEvent}
    (hpast : past ⊆ before) : ¬ Recorded p past t := by
  intro hrecorded
  obtain ⟨-, -, hreset, hfetch⟩ := h.fetching hls
  rcases hrecorded.made with hmade | ⟨r', hmade⟩
  · exact hreset (hpast hmade)
  · exact hfetch _ _ (hpast hmade)

theorem OidcRun.check_late {u e : ℕ} (h : OidcRun D p jwks clock ls c) {between : List OidcEvent}
    (hls : ls = before ++ .call t (.resetLastRefresh p) () ::
      (between ++ .call u (.elapsed p) e :: after)) : e ≤ ticks between := by
  subst hls
  obtain ⟨c₁, -, h₁⟩ := Trace.append_iff.mp h
  obtain ⟨c₂, hreset, h₂⟩ := Trace.cons_iff.mp h₁
  obtain ⟨c₃, hbetween, h₃⟩ := Trace.append_iff.mp h₂
  obtain ⟨c₄, hcheck, -⟩ := Trace.cons_iff.mp h₃
  have hnow : c₂.world.lastRefresh = c₂.world.clock := by
    have hanswer := hreset.1.executed
    generalize c₂.world = w at hanswer ⊢
    cases hanswer
    rfl
  have helapsed : e = c₃.world.clock - c₃.world.lastRefresh := by
    have hanswer := hcheck.1.executed
    generalize c₄.world = w at hanswer
    cases hanswer
    rfl
  obtain ⟨hlast, hclock⟩ := OidcSegment.time hbetween (Nat.le_of_eq hnow.symm) (Nat.le_refl _)
  omega

/-- In a run whose steps are all in turn, any two fetches are a cooldown apart. -/
theorem orderly_spaced (D : Deps) (p : OidcProvider) (jwks : JwkSet) (clock : ℕ)
    (ls : List OidcEvent) (c : OidcState) (h : OidcRun D p jwks clock ls c) (ho : Orderly p ls) :
    Spaced p ls := by
  intro before t uri r between u uri' r' after hls
  have hls' : ls = (before ++ .call t (.fetchJwks uri) r :: between) ++
      .call u (.fetchJwks uri') r' :: after := by
    rw [hls]
    simp
  obtain ⟨rfl, ⟨e, hcheck, hpassed⟩, hreset, hfetch⟩ := h.fetching hls
  obtain ⟨-, ⟨e', hcheck', hpassed'⟩, -, hfetch'⟩ := h.fetching hls'
  obtain ⟨d, hd, -⟩ := Trace.append_iff.mp (hls' ▸ h)
  rcases Trace.first_of_two hd (List.mem_append_left _ hcheck) hcheck' with
    heq | ⟨early, late, -, -, hsplit, -, -, hmem⟩ | ⟨early, late, -, -, hsplit, -, -, hmem⟩
  · -- one request fetches once
    cases heq
    exact absurd (List.mem_append_right _ (.head _)) (hfetch' p.jwksUri r)
  · -- the check of `u` came first, so `u` was recorded when `t` passed
    have hwhole : ls = early ++ .call t (.elapsed p) e ::
        (late ++ .call u (.fetchJwks uri') r' :: after) := by
      rw [hls', hsplit, List.append_assoc, List.cons_append]
    have hrecorded := ho _ _ _ hwhole t e rfl hpassed u ⟨e', hmem, hpassed'⟩
    refine absurd hrecorded (h.unrecorded hls' ?_)
    rw [hsplit]
    exact List.subset_append_left _ _
  · have hwhole : ls = early ++ .call u (.elapsed p) e' ::
        (late ++ .call u (.fetchJwks uri') r' :: after) := by
      rw [hls', hsplit, List.append_assoc, List.cons_append]
    have hrecorded := ho _ _ _ hwhole u e' rfl hpassed' t ⟨e, hmem, hpassed⟩
    rcases hrecorded with hreset' | ⟨d₁, r₁, d₂, rfl, hlong⟩
    · -- the refresh of `t` was recorded before `u` looked, a cooldown earlier
      obtain ⟨d₁, d₂, rfl⟩ := List.append_of_mem hreset'
      rw [List.append_assoc, List.cons_append] at hsplit hwhole
      have hlate := h.check_late hwhole
      have hbehind := ticks_suffix (suffix_of_late hsplit hreset)
      rw [ticks_append] at hbehind
      omega
    · rw [List.append_assoc, List.cons_append] at hsplit
      have hbehind := ticks_suffix (suffix_of_late hsplit (hfetch _ _))
      rw [ticks_append] at hbehind
      omega

end Runs

section Sample
variable (D : Deps) (p : OidcProvider)

/-- An id_token, signed by nobody, that names the provider and a key. -/
def bogusToken (kid : String) : String :=
  compact (D.b64Encode (D.headerToJson ⟨.HS256, some kid⟩))
    (D.b64Encode (D.toJson [("iss", .str p.issuer)])) ""

variable {D p}

/-- The validator gets as far as looking its key up. -/
theorem bogusToken_after {kid : String} {tr : List OidcCalls.Event} {o : OidcOp}
    {k : o.Reply → OidcAction (Except String Jwk)}
    (h : Prog.After (p.resolveKey kid) tr (.call o k)) :
    ∃ k', Prog.After (verifyIdToken D [p] (bogusToken D p kid)) tr (.call o k') := by
  have hiss : ∀ m ∈ [("iss", Json.str p.issuer)], m.2.Scalar := by simp [Json.Scalar]
  have hparsed : decodeJwtPayloadUnverified D (bogusToken D p kid) =
      .ok [("iss", .str p.issuer)] := by
    rw [decodeJwtPayloadUnverified, bogusToken, splitDots_compact (D.b64Encode_dotless _)
      (D.b64Encode_dotless _) (by simp)]
    simp [D.b64Decode_encode, D.fromJson_toJson _ hiss]
  have hheader : D.decodeHeader (bogusToken D p kid) = .ok ⟨.HS256, some kid⟩ := by
    rw [D.decodeHeader_ok, bogusToken, decodeHeader_compact (D.b64Encode_dotless _) (by simp)]
    simp [D.b64Decode_encode, D.headerFromJson_toJson]
  have hissuer : Payload.getStr [("iss", .str p.issuer)] "iss" = some p.issuer := rfl
  simp only [verifyIdToken, hparsed, hissuer, List.find?_cons_of_pos, decide_true, hheader]
  exact ⟨_, Prog.After.bind h⟩

variable {c : OidcState} {t : ℕ}

/-- A request with a key that is not in the cache, up to a call of the refresh. -/
theorem bogusToken_run {kid : String} {jwks : JwkSet} {tr : List OidcCalls.Event} {o : OidcOp}
    {r : o.Reply} {w : ProviderState} (idle : c.threads t = none) (hjwks : c.world.jwks = jwks)
    (hkid : findKey jwks kid = none) (h : Refreshing p tr o)
    (hworld : Trace oneProvider.answers c.world (tr ++ [⟨o, r⟩]) w) :
    ∃ d, OidcSegment D p c (.arrive t (bogusToken D p kid) ::
      callsBy t (⟨.readJwks p, jwks⟩ :: (tr ++ [⟨o, r⟩]))) d ∧ d.world = w ∧
      ∀ u, u ≠ t → d.threads u = c.threads u := by
  subst hjwks
  obtain ⟨k, h⟩ := h.reached
  have hresolve : ∃ k', Prog.After (p.resolveKey kid) (⟨.readJwks p, c.world.jwks⟩ :: tr)
      (.call o k') := by
    rw [OidcProvider.resolveKey, readJwks_bind]
    apply Exists.intro
    apply Prog.After.call
    simp only [hkid]
    exact h.bind
  obtain ⟨k₁, h₁⟩ := hresolve
  obtain ⟨k₂, h₂⟩ := bogusToken_after h₁
  have hread : Trace oneProvider.answers c.world
      (⟨.readJwks p, c.world.jwks⟩ :: (tr ++ [⟨o, r⟩])) w :=
    Trace.cons_iff.mpr ⟨_, .readJwks _ _, hworld⟩
  refine ⟨_, Trace.begun (fun _ _ _ => trivial) idle (h₂.snoc r) hread, rfl, fun u hu => ?_⟩
  simp [hu]

/-- A fetch that ended like this, 60 seconds behind the last refresh. -/
def fetched (r : Except FetchError JwkSet) : List OidcCalls.Event :=
  [⟨.readJwks Sample.provider, ⟨[]⟩⟩, ⟨.elapsed Sample.provider, (60 : ℕ)⟩,
    ⟨.fetchJwks Sample.provider.jwksUri, r⟩]

def recorded : List OidcCalls.Event :=
  [⟨.writeJwks Sample.provider ⟨[]⟩, ()⟩, ⟨.resetLastRefresh Sample.provider, ()⟩]

def arrival (t : ℕ) : OidcEvent := .arrive t (bogusToken Sample.deps Sample.provider "k")

theorem fetched_run {r : Except FetchError JwkSet} (idle : c.threads t = none)
    (hkeys : c.world.jwks = ⟨[]⟩) (hlate : c.world.clock - c.world.lastRefresh = 60) :
    ∃ d, OidcSegment Sample.deps Sample.provider c (arrival t :: callsBy t (fetched r)) d ∧
      d.world = c.world ∧ ∀ u, u ≠ t → d.threads u = c.threads u := by
  have hworld : Trace oneProvider.answers c.world ([⟨.elapsed Sample.provider, (60 : ℕ)⟩] ++
      [⟨.fetchJwks Sample.provider.jwksUri, r⟩]) c.world := by
    have helapsed := OidcAnswers.elapsed c.world Sample.provider
    rw [hlate] at helapsed
    exact .snoc (.one helapsed) (.fetchJwks _ _ _)
  exact bogusToken_run idle hkeys rfl (.late (Nat.le_refl _)) hworld

theorem recorded_run (idle : c.threads t = none) (hkeys : c.world.jwks = ⟨[]⟩)
    (hlate : c.world.clock - c.world.lastRefresh = 60) :
    ∃ d, OidcSegment Sample.deps Sample.provider c
        (arrival t :: callsBy t (fetched (.ok ⟨[]⟩) ++ recorded)) d ∧
      d.world = ⟨⟨[]⟩, c.world.clock, c.world.clock⟩ ∧ ∀ u, u ≠ t → d.threads u = c.threads u := by
  have hworld : Trace oneProvider.answers c.world ([⟨.elapsed Sample.provider, (60 : ℕ)⟩,
      ⟨.fetchJwks Sample.provider.jwksUri, .ok ⟨[]⟩⟩, ⟨.writeJwks Sample.provider ⟨[]⟩, ()⟩] ++
      [⟨.resetLastRefresh Sample.provider, ()⟩]) ⟨⟨[]⟩, c.world.clock, c.world.clock⟩ := by
    have helapsed := OidcAnswers.elapsed c.world Sample.provider
    rw [hlate] at helapsed
    refine Trace.cons_iff.mpr ⟨_, helapsed, Trace.cons_iff.mpr ⟨_, .fetchJwks _ _ _, ?_⟩⟩
    exact .snoc (.one (.writeJwks _ _ _)) (.resetLastRefresh _ _)
  exact bogusToken_run idle hkeys rfl (.written (Nat.le_refl _)) hworld

/-- Two refreshes in turn. -/
def turns : List OidcEvent :=
  [.env 60] ++ (arrival 0 :: callsBy 0 (fetched (.ok ⟨[]⟩) ++ recorded)) ++ [.env 60] ++
    (arrival 1 :: callsBy 1 (fetched (.ok ⟨[]⟩)))

theorem turns_orderly : Orderly Sample.provider turns := by
  let opening : List OidcEvent := [.env 60, arrival 0, .call 0 (.readJwks Sample.provider) ⟨[]⟩]
  let middle : List OidcEvent := [.call 0 (.fetchJwks Sample.provider.jwksUri) (.ok ⟨[]⟩),
    .call 0 (.writeJwks Sample.provider ⟨[]⟩) (), .call 0 (.resetLastRefresh Sample.provider) (),
    .env 60, arrival 1, .call 1 (.readJwks Sample.provider) ⟨[]⟩]
  have hopening : opening.all (fun l => !checks l) = true := rfl
  have hmiddle : middle.all (fun l => !checks l) = true := rfl
  have hfirst : Orderly Sample.provider
      (([] ++ opening) ++ [.call 0 (.elapsed Sample.provider) (60 : ℕ)]) := by
    refine orderly_snoc (orderly_append orderly_nil hopening) ?_
    rintro t e - - u ⟨e', hmem, -⟩
    exact absurd hmem (not_checked hopening u e')
  have hsecond : Orderly Sample.provider ((([] ++ opening) ++ [.call 0 (.elapsed Sample.provider)
      (60 : ℕ)] ++ middle) ++ [.call 1 (.elapsed Sample.provider) (60 : ℕ)]) := by
    refine orderly_snoc (orderly_append hfirst hmiddle) ?_
    rintro t e - - u ⟨e', hmem, -⟩
    -- only request 0 has passed, and its refresh is recorded
    have hzero : u = 0 := by
      rcases List.mem_append.mp hmem with hmem | hmem
      · rcases List.mem_append.mp hmem with hmem | hmem
        · exact absurd hmem (not_checked hopening u e')
        · cases List.mem_singleton.mp hmem
          rfl
      · exact absurd hmem (not_checked hmiddle u e')
    rw [hzero]
    exact .inl (List.mem_append_right _ (.tail _ (.tail _ (.head _))))
  have hrest : ([.call 1 (.fetchJwks Sample.provider.jwksUri) (.ok ⟨[]⟩)] : List OidcEvent).all
      (fun l => !checks l) = true := rfl
  have hwhole := orderly_append hsecond hrest
  exact hwhole

/-- The second of them fetches a cooldown behind the first. -/
theorem orderly_spaced_sample : ∃ c, OidcRun Sample.deps Sample.provider ⟨[]⟩ 0 turns c ∧
    Spaced Sample.provider turns := by
  let booted : OidcState := .initial ⟨⟨[]⟩, 0, 0⟩
  have hpass : OidcSegment Sample.deps Sample.provider booted [.env 60]
      ⟨⟨⟨[]⟩, 0, 60⟩, booted.threads⟩ := Trace.one ⟨.env rfl, trivial⟩
  obtain ⟨c, hfirst, hworld, hothers⟩ := recorded_run (t := 0)
    (c := ⟨⟨⟨[]⟩, 0, 60⟩, booted.threads⟩) rfl rfl rfl
  have hwait : OidcSegment Sample.deps Sample.provider c [.env 60]
      ⟨⟨⟨[]⟩, 60, 120⟩, c.threads⟩ := Trace.one ⟨.env (by rw [hworld]; rfl), trivial⟩
  obtain ⟨d, hsecond, -, -⟩ := fetched_run (c := ⟨⟨⟨[]⟩, 60, 120⟩, c.threads⟩) (t := 1)
    (r := .ok ⟨[]⟩) (hothers 1 (by decide)) rfl rfl
  have hrun := Trace.trans (Trace.trans (Trace.trans hpass hfirst) hwait) hsecond
  exact ⟨d, hrun, orderly_spaced _ _ _ _ _ _ hrun turns_orderly⟩

/-- A fetch that fails is not recorded, so the next request fetches at once. -/
theorem fetches_crowd : ∃ ls c, OidcRun Sample.deps Sample.provider ⟨[]⟩ 0 ls c ∧
    ¬ Spaced Sample.provider ls := by
  let booted : OidcState := .initial ⟨⟨[]⟩, 0, 0⟩
  have hpass : OidcSegment Sample.deps Sample.provider booted [.env 60]
      ⟨⟨⟨[]⟩, 0, 60⟩, booted.threads⟩ := Trace.one ⟨.env rfl, trivial⟩
  obtain ⟨c, hfirst, hworld, hothers⟩ := fetched_run (t := 0) (r := .error (.send "refused"))
    (c := ⟨⟨⟨[]⟩, 0, 60⟩, booted.threads⟩) rfl rfl rfl
  obtain ⟨d, hsecond, -, -⟩ := fetched_run (c := c) (t := 1) (r := .error (.send "refused"))
    (hothers 1 (by decide)) (by rw [hworld]) (by rw [hworld]; rfl)
  refine ⟨_, d, Trace.trans (Trace.trans hpass hfirst) hsecond, fun hspaced => ?_⟩
  have hapart := hspaced [.env 60, arrival 0, .call 0 (.readJwks Sample.provider) ⟨[]⟩,
    .call 0 (.elapsed Sample.provider) (60 : ℕ)] 0 _ _ [arrival 1,
    .call 1 (.readJwks Sample.provider) ⟨[]⟩, .call 1 (.elapsed Sample.provider) (60 : ℕ)]
    1 _ _ [] rfl
  exact absurd hapart (by decide)

end Sample

end SvcAuth
