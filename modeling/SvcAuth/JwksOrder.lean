import SvcAuth.JwksRefresh

/-! Refreshes that overlap, while the identity provider publishes new key sets. A fetch gets
the set published at the moment; by the time a request writes it into the cache, another one
may have written a newer set. The log of a run numbers the sets and says which one is cached. -/
namespace SvcAuth
open Interleave JsonWebToken

structure IssuerState where
  provider : ProviderState
  published : JwkSet

/-- The calls are answered as ever, but a fetch that succeeds gets the published set. -/
structure IssuerAnswers (w : IssuerState) (o : OidcOp) (r : o.Reply) (w' : IssuerState) : Prop where
  answer : OidcAnswers w.provider o r w'.provider
  same : w'.published = w.published
  current : ∀ uri jwks, (⟨o, r⟩ : OidcCalls.Event) = ⟨.fetchJwks uri, .ok jwks⟩ →
    jwks = w.published

inductive IssuerEvent
  | publish (jwks : JwkSet)
  | pass (ticks : ℕ)
  deriving DecidableEq, Repr

def IssuerActs (w : IssuerState) : IssuerEvent → IssuerState → Prop
  | .publish jwks, w' => w' = { w with published := jwks }
  | .pass ticks, w' => w' = { w with provider.clock := w.provider.clock + ticks }

def oneIssuer : System OidcCalls IssuerState IssuerEvent := ⟨IssuerAnswers, IssuerActs⟩

abbrev KeyEvent := Label OidcCalls String IssuerEvent

abbrev KeyState := Config (OidcAction (Except String Jwk)) IssuerState

/-- What happens between two states; a request is a kid to be resolved. -/
abbrev KeySegment (p : OidcProvider) : KeyState → List KeyEvent → KeyState → Prop :=
  Trace (GuardedStep oneIssuer (Prog.machine OidcCalls _) p.resolveKey fun _ _ _ => True)

/-- A run after boot, which has just fetched the published keys. -/
abbrev KeyRun (p : OidcProvider) (jwks : JwkSet) (clock : ℕ) : List KeyEvent → KeyState → Prop :=
  KeySegment p (.initial ⟨⟨jwks, clock, clock⟩, jwks⟩)

/-- The published sets by their number, with the number of the latest, of the one each
request fetched last, and of the one in the cache. -/
structure History where
  sets : ℕ → JwkSet
  latest : ℕ
  fetched : ℕ → ℕ
  cached : ℕ

namespace History

def booted (jwks : JwkSet) : History := ⟨fun _ => jwks, 0, fun _ => 0, 0⟩

def note (h : History) : KeyEvent → History
  | .env (.publish jwks) =>
    { h with
      sets := Function.update h.sets (h.latest + 1) jwks
      latest := h.latest + 1 }
  | .call t (.fetchJwks _) (.ok _) => { h with fetched := Function.update h.fetched t h.latest }
  | .call t (.writeJwks _ _) _ => { h with cached := h.fetched t }
  | _ => h

/-- The history of a run, by its log. -/
def after (h : History) (ls : List KeyEvent) : History := ls.foldl note h

end History

/-- A request has written a set published later than the one that `t` fetched. -/
def Overtaken (h : History) (ls : List KeyEvent) (t : ℕ) : Prop :=
  ∃ u p jwks, .call u (.writeJwks p jwks) () ∈ ls ∧ (h.after ls).fetched t < (h.after ls).fetched u

/-- No request writes the set it fetched when it has been overtaken. -/
def InOrder (h : History) (ls : List KeyEvent) : Prop :=
  ∀ before t p jwks after, ls = before ++ .call t (.writeJwks p jwks) () :: after →
    ¬ Overtaken h before t

/-- The cache never goes back, and who fetched a set with its kid, which all later sets have
too, returns a key. -/
structure RefreshesStand (h : History) (ls : List KeyEvent) (c : KeyState) : Prop where
  forward : ∀ before between after, ls = before ++ between ++ after →
    (h.after before).cached ≤ (h.after (before ++ between)).cached
  found : ∀ t kid uri jwks, .arrive t kid ∈ ls → .call t (.fetchJwks uri) (.ok jwks) ∈ ls →
    (∀ n, (h.after ls).fetched t ≤ n → n ≤ (h.after ls).latest →
      (findKey ((h.after ls).sets n) kid).isSome) →
    ∀ r, c.result (Prog.machine OidcCalls _) t = some r → ∃ jwk, r = .ok jwk ∧ jwk.keyId = some kid

namespace History
variable {h : History} {ls ms : List KeyEvent} {l : KeyEvent} {t : ℕ}

theorem after_append (h : History) (ls ms : List KeyEvent) :
    h.after (ls ++ ms) = (h.after ls).after ms := List.foldl_append

theorem after_snoc (h : History) (ls : List KeyEvent) (l : KeyEvent) :
    h.after (ls ++ [l]) = (h.after ls).note l := after_append h ls [l]

theorem note_publish (h : History) (jwks : JwkSet) :
    (h.note (.env (.publish jwks))).sets (h.note (.env (.publish jwks))).latest = jwks := by
  simp [note]

theorem note_call (h : History) (t : ℕ) (o : OidcOp) (r : o.Reply) :
    (h.note (.call t o r)).sets = h.sets ∧ (h.note (.call t o r)).latest = h.latest := by
  cases o with
  | fetchJwks uri => cases r <;> exact ⟨rfl, rfl⟩
  | _ => exact ⟨rfl, rfl⟩

theorem note_latest (h : History) (l : KeyEvent) : h.latest ≤ (h.note l).latest := by
  rcases l with ⟨t, q⟩ | ⟨t, o, r⟩ | ⟨jwks⟩ | ⟨ticks⟩
  · exact Nat.le_refl _
  · exact Nat.le_of_eq (note_call h t o r).2.symm
  · exact Nat.le_succ _
  · exact Nat.le_refl _

theorem note_sets (l : KeyEvent) {n : ℕ} (hn : n ≤ h.latest) : (h.note l).sets n = h.sets n := by
  rcases l with ⟨t, q⟩ | ⟨t, o, r⟩ | ⟨jwks⟩ | ⟨ticks⟩
  · rfl
  · exact congrFun (note_call h t o r).1 n
  · have hne : n ≠ h.latest + 1 := by omega
    exact Function.update_of_ne hne _ _
  · rfl

/-- This step is a fetch of `t` that succeeds. -/
def Fetches (t : ℕ) (l : KeyEvent) : Prop := ∃ uri jwks, l = .call t (.fetchJwks uri) (.ok jwks)

theorem note_fetched (h : History) (l : KeyEvent) (t : ℕ) :
    Fetches t l ∧ (h.note l).fetched t = h.latest ∨
      ¬ Fetches t l ∧ (h.note l).fetched t = h.fetched t := by
  by_cases hfetch : Fetches t l
  · obtain ⟨uri, jwks, rfl⟩ := hfetch
    exact .inl ⟨⟨uri, jwks, rfl⟩, Function.update_self _ _ _⟩
  · refine .inr ⟨hfetch, ?_⟩
    rcases l with ⟨u, q⟩ | ⟨u, o, r⟩ | ⟨jwks⟩ | ⟨ticks⟩
    · rfl
    · cases o with
      | fetchJwks uri =>
        cases r with
        | error e => rfl
        | ok jwks =>
          have hne : t ≠ u := by
            rintro rfl
            exact hfetch ⟨uri, jwks, rfl⟩
          exact Function.update_of_ne hne _ _
      | _ => rfl
    · rfl
    · rfl

theorem note_cached (h : History) (l : KeyEvent) :
    (∃ t p jwks, l = .call t (.writeJwks p jwks) () ∧ (h.note l).cached = h.fetched t) ∨
      (h.note l).cached = h.cached := by
  rcases l with ⟨t, q⟩ | ⟨t, o, r⟩ | ⟨jwks⟩ | ⟨ticks⟩
  · exact .inr rfl
  · cases o with
    | fetchJwks uri => cases r <;> exact .inr rfl
    | writeJwks p jwks => exact .inl ⟨t, p, jwks, rfl, rfl⟩
    | _ => exact .inr rfl
  · exact .inr rfl
  · exact .inr rfl

/-- Only published sets have been fetched and cached. -/
structure Bounded (h : History) : Prop where
  fetched : ∀ t, h.fetched t ≤ h.latest
  cached : h.cached ≤ h.latest

theorem Bounded.note (hh : h.Bounded) (l : KeyEvent) : (h.note l).Bounded := by
  have hlatest := h.note_latest l
  constructor
  · intro t
    have hold := hh.fetched t
    rcases h.note_fetched l t with ⟨-, heq⟩ | ⟨-, heq⟩ <;> omega
  · have hold := hh.cached
    rcases h.note_cached l with ⟨t, p, jwks, -, heq⟩ | heq
    · have hfetched := hh.fetched t
      omega
    · omega

theorem after_bounded (hh : h.Bounded) (ls : List KeyEvent) : (h.after ls).Bounded := by
  induction ls using List.reverseRecOn with
  | nil => exact hh
  | append_singleton ls l ih =>
    rw [after_snoc]
    exact ih.note l

theorem after_latest (h : History) (ls : List KeyEvent) : h.latest ≤ (h.after ls).latest := by
  induction ls using List.reverseRecOn with
  | nil => exact Nat.le_refl _
  | append_singleton ls l ih =>
    rw [after_snoc]
    exact Nat.le_trans ih (note_latest _ l)

theorem after_sets (ls : List KeyEvent) {n : ℕ} (hn : n ≤ h.latest) :
    (h.after ls).sets n = h.sets n := by
  induction ls using List.reverseRecOn with
  | nil => rfl
  | append_singleton ls l ih =>
    rw [after_snoc, note_sets l (Nat.le_trans hn (after_latest h ls)), ih]

theorem after_fetched (h : History) (hnone : ∀ l ∈ ls, ¬ Fetches t l) :
    (h.after ls).fetched t = h.fetched t := by
  induction ls using List.reverseRecOn with
  | nil => rfl
  | append_singleton ls l ih =>
    rw [after_snoc, ← ih fun m hm => hnone m (List.mem_append_left _ hm)]
    rcases note_fetched (h.after ls) l t with ⟨hfetch, -⟩ | ⟨-, heq⟩
    · exact absurd hfetch (hnone l List.mem_concat_self)
    · exact heq

theorem booted_bounded (jwks : JwkSet) : (booted jwks).Bounded :=
  ⟨fun _ => Nat.le_refl _, Nat.le_refl _⟩

end History

section Resolution
variable {p q : OidcProvider} {kid uri : String} {tr : List OidcCalls.Event} {jwks : JwkSet}

/-- A request that is about to write has fetched just that set. -/
theorem resolveKey_write {k : Unit → OidcAction (Except String Jwk)}
    (h : Prog.After (p.resolveKey kid) tr (.call (.writeJwks q jwks) k)) :
    ∃ (old : JwkSet) (e : ℕ), tr = [⟨.readJwks p, old⟩, ⟨.elapsed p, e⟩,
      ⟨.fetchJwks p.jwksUri, .ok jwks⟩] := by
  obtain ⟨old, rest, rfl, hrest⟩ := resolveKey_after h (by simp)
  cases hrest with
  | fetched => exact ⟨old, _, rfl⟩

/-- A refresh whose fetch succeeded has written the set. -/
theorem RefreshCalls.fetched {r : Except String Unit} (h : RefreshCalls p tr r)
    (hfetch : ⟨.fetchJwks uri, .ok jwks⟩ ∈ tr) : r = .ok () ∧ ∃ e : ℕ,
      tr = [⟨.elapsed p, e⟩, ⟨.fetchJwks p.jwksUri, .ok jwks⟩, ⟨.writeJwks p jwks, ()⟩,
        ⟨.resetLastRefresh p, ()⟩] := by
  cases h with
  | early => cases List.mem_singleton.mp hfetch
  | failed =>
    simp only [List.mem_cons, List.not_mem_nil, or_false] at hfetch
    rcases hfetch with heq | heq <;> cases heq
  | refreshed =>
    simp only [List.mem_cons, List.not_mem_nil, or_false] at hfetch
    rcases hfetch with heq | heq | heq | heq <;> cases heq
    exact ⟨rfl, _, rfl⟩

theorem fetched_between {old now : JwkSet} {calls : List OidcCalls.Event}
    (h : ⟨.fetchJwks uri, .ok jwks⟩ ∈ ⟨.readJwks p, old⟩ :: (calls ++ [⟨.readJwks p, now⟩])) :
    ⟨.fetchJwks uri, .ok jwks⟩ ∈ calls := by
  rcases List.mem_cons.mp h with heq | h
  · cases heq
  · rcases List.mem_append.mp h with h | h
    · exact h
    · cases List.mem_singleton.mp h

/-- A request whose fetch succeeded has written the set and looks its key up again. -/
theorem resolveKey_refreshed {r : Except String Jwk} (h : Prog.Ran (p.resolveKey kid) tr r)
    (hfetch : ⟨.fetchJwks uri, .ok jwks⟩ ∈ tr) :
    ∃ (old : JwkSet) (e : ℕ) (now : JwkSet), tr = [⟨.readJwks p, old⟩, ⟨.elapsed p, e⟩,
      ⟨.fetchJwks p.jwksUri, .ok jwks⟩, ⟨.writeJwks p jwks, ()⟩, ⟨.resetLastRefresh p, ()⟩,
      ⟨.readJwks p, now⟩] ∧ ∀ jwk, findKey now kid = some jwk → r = .ok jwk := by
  cases resolveKey_calls h with
  | cached => cases List.mem_singleton.mp hfetch
  | failed hrefresh =>
    have hfetched := (List.mem_cons.mp hfetch).resolve_left nofun
    cases (hrefresh.fetched hfetched).1
  | @found old now calls jwk' hrefresh hfound =>
    obtain ⟨-, e, rfl⟩ := hrefresh.fetched (fetched_between hfetch)
    exact ⟨old, e, now, rfl, fun jwk hjwk => by rw [← Option.some.inj (hfound.symm.trans hjwk)]⟩
  | @absent old now calls message hrefresh habsent =>
    obtain ⟨-, e, rfl⟩ := hrefresh.fetched (fetched_between hfetch)
    exact ⟨old, e, now, rfl, fun jwk hjwk => by rw [habsent] at hjwk; cases hjwk⟩

end Resolution

section Runs
variable {p : OidcProvider} {boot jwks : JwkSet} {clock t : ℕ} {uri : String}
  {ls ms before after : List KeyEvent} {l : KeyEvent} {c d : KeyState}

/-- Who fetches has neither fetched nor written before. -/
theorem KeyRun.fetching (h : KeyRun p boot clock ls c) {r : Except FetchError JwkSet}
    (hls : ls = before ++ .call t (.fetchJwks uri) r :: after) :
    (∀ uri' r', .call t (.fetchJwks uri') r' ∉ before) ∧
      ∀ q s, .call t (.writeJwks q s) () ∉ before := by
  obtain ⟨kid, k, -, hafter⟩ := Trace.call_after h hls
  obtain ⟨-, old, e, hcalls, -⟩ := resolveKey_fetch hafter
  refine ⟨fun uri' r' hfetch => ?_, fun q s hwrite => ?_⟩
  · have hmem := mem_callsOf.mpr hfetch
    simp only [hcalls, List.mem_cons, List.not_mem_nil, or_false] at hmem
    rcases hmem with heq | heq <;> cases heq
  · have hmem := mem_callsOf.mpr hwrite
    simp only [hcalls, List.mem_cons, List.not_mem_nil, or_false] at hmem
    rcases hmem with heq | heq <;> cases heq

theorem KeyRun.writing (h : KeyRun p boot clock ls c) {q : OidcProvider}
    (hls : ls = before ++ .call t (.writeJwks q jwks) () :: after) :
    .call t (.fetchJwks p.jwksUri) (.ok jwks) ∈ before := by
  obtain ⟨kid, k, -, hafter⟩ := Trace.call_after h hls
  obtain ⟨old, e, hcalls⟩ := resolveKey_write hafter
  refine mem_callsOf.mp ?_
  rw [hcalls]
  exact .tail _ (.tail _ (.head _))

/-- What the log of a run says of its state: the numbers stand for what is published, what is
cached, and what each request fetched. -/
structure Tracked (h : History) (ls : List KeyEvent) (w : IssuerState) : Prop where
  published : w.published = (h.after ls).sets (h.after ls).latest
  cached : w.provider.jwks = (h.after ls).sets (h.after ls).cached
  fetched : ∀ t uri jwks, .call t (.fetchJwks uri) (.ok jwks) ∈ ls →
    (h.after ls).sets ((h.after ls).fetched t) = jwks

theorem KeyRun.tracked (h : KeyRun p boot clock ls c) : Tracked (.booted boot) ls c.world := by
  induction h with
  | nil => exact ⟨rfl, rfl, fun t uri jwks hmem => by cases hmem⟩
  | @snoc c d ls l prior last ih =>
    have hbounded := History.after_bounded (History.booted_bounded boot) ls
    have hwhole : KeyRun p boot clock (ls ++ [l]) d := .snoc prior last
    have hfetched : ∀ t uri jwks, .call t (.fetchJwks uri) (.ok jwks) ∈ ls ++ [l] →
        (((History.booted boot).after ls).note l).sets
          ((((History.booted boot).after ls).note l).fetched t) = jwks := by
      intro t uri jwks hmem
      rcases History.note_fetched ((History.booted boot).after ls) l t with
        ⟨⟨uri', jwks', hl⟩, hnumber⟩ | ⟨hother, hnumber⟩
      · subst hl
        have hcurrent : jwks' = c.world.published := last.1.executed.current _ _ rfl
        rw [hnumber, History.note_sets _ (Nat.le_refl _), ← ih.published, ← hcurrent]
        rcases List.mem_append.mp hmem with hold | hnew
        · exact absurd hold ((hwhole.fetching rfl).1 _ _)
        · cases List.mem_singleton.mp hnew
          rfl
      · rw [hnumber, History.note_sets _ (hbounded.fetched t)]
        rcases List.mem_append.mp hmem with hold | hnew
        · exact ih.fetched t uri jwks hold
        · exact absurd ⟨uri, jwks, (List.mem_singleton.mp hnew).symm⟩ hother
    rcases last.1.inv with ⟨t, q, rfl, -, hw, -⟩ | ⟨t, ph, o, k, r, rfl, -, -, hw, -⟩ |
      ⟨e, rfl, hw, -⟩
    · constructor
      · rw [hw, History.after_snoc]
        exact ih.published
      · rw [hw, History.after_snoc]
        exact ih.cached
      · rw [History.after_snoc]
        exact hfetched
    · constructor
      · rw [hw.same, History.after_snoc, (History.note_call _ t o r).1,
          (History.note_call _ t o r).2]
        exact ih.published
      · rw [History.after_snoc, (History.note_call _ t o r).1]
        have hanswer := hw.answer
        generalize d.world.provider = w at hanswer ⊢
        cases hanswer with
        | writeJwks q jwks => exact (ih.fetched _ _ _ (hwhole.writing rfl)).symm
        | fetchJwks uri r => cases r <;> exact ih.cached
        | _ => exact ih.cached
      · rw [History.after_snoc]
        exact hfetched
    · constructor
      · rw [History.after_snoc]
        cases e with
        | publish jwks =>
          rw [hw]
          exact (History.note_publish _ jwks).symm
        | pass ticks =>
          rw [hw]
          exact ih.published
      · rw [History.after_snoc]
        cases e with
        | publish jwks =>
          rw [hw]
          exact ih.cached.trans (History.note_sets (.env (.publish jwks)) hbounded.cached).symm
        | pass ticks =>
          rw [hw]
          exact ih.cached
      · rw [History.after_snoc]
        exact hfetched

theorem KeyRun.written (h : KeyRun p boot clock (before ++ l :: after) c) {q : OidcProvider}
    (hwrite : .call t (.writeJwks q jwks) () ∈ before) : ¬ History.Fetches t l := by
  rintro ⟨uri, s, rfl⟩
  exact (h.fetching rfl).2 q jwks hwrite

theorem KeyRun.cached_written (h : KeyRun p boot clock ls c) :
    ((History.booted boot).after ls).cached = 0 ∨ ∃ u q s, .call u (.writeJwks q s) () ∈ ls ∧
      ((History.booted boot).after ls).cached = ((History.booted boot).after ls).fetched u := by
  induction h with
  | nil => exact .inl rfl
  | @snoc c d ls l prior last ih =>
    have hwhole : KeyRun p boot clock (ls ++ [l]) d := .snoc prior last
    rw [History.after_snoc]
    rcases History.note_cached ((History.booted boot).after ls) l with
      ⟨t, q, s, rfl, hcached⟩ | hcached
    · exact .inr ⟨t, q, s, List.mem_concat_self, hcached⟩
    · rw [hcached]
      rcases ih with hboot | ⟨u, q, s, hwrite, hfetched⟩
      · exact .inl hboot
      · refine .inr ⟨u, q, s, List.mem_append_left _ hwrite, ?_⟩
        rcases History.note_fetched ((History.booted boot).after ls) l u with
          ⟨hfetch, -⟩ | ⟨-, hsame⟩
        · exact absurd hfetch (hwhole.written hwrite)
        · rw [hsame]
          exact hfetched

theorem KeyRun.cached_forward (h : KeyRun p boot clock (ls ++ ms) c)
    (horder : InOrder (.booted boot) (ls ++ ms)) :
    ((History.booted boot).after ls).cached ≤ ((History.booted boot).after (ls ++ ms)).cached := by
  induction ms using List.reverseRecOn generalizing c with
  | nil => rw [List.append_nil]
  | append_singleton ms l ih =>
    rw [← List.append_assoc] at h horder ⊢
    obtain ⟨d, hprior, -⟩ := Trace.snoc_iff.mp h
    have hearlier : InOrder (.booted boot) (ls ++ ms) := by
      intro before t q jwks after hsplit
      exact horder before t q jwks (after ++ [l]) (by rw [hsplit, List.append_assoc]; rfl)
    have hforward := ih hprior hearlier
    rw [History.after_snoc]
    rcases History.note_cached ((History.booted boot).after (ls ++ ms)) l with
      ⟨t, q, s, rfl, hcached⟩ | hcached
    · have hin := horder (ls ++ ms) t q s [] rfl
      rw [hcached]
      rcases KeyRun.cached_written hprior with hboot | ⟨u, q', s', hwrite, hfetched⟩
      · omega
      · have hnot : ¬ ((History.booted boot).after (ls ++ ms)).fetched t <
            ((History.booted boot).after (ls ++ ms)).fetched u := fun hlt =>
          hin ⟨u, q', s', hwrite, hlt⟩
        omega
    · rw [hcached]
      exact hforward

/-- A write makes the cache what the request fetched, and that stays the number of its fetch. -/
theorem KeyRun.write_number {q : OidcProvider}
    (h : KeyRun p boot clock (before ++ .call t (.writeJwks q jwks) () :: after) c) :
    ((History.booted boot).after (before ++ [.call t (.writeJwks q jwks) ()])).cached =
      ((History.booted boot).after (before ++ .call t (.writeJwks q jwks) () :: after)).fetched t := by
  have hquiet : ∀ l ∈ (.call t (.writeJwks q jwks) () :: after : List KeyEvent),
      ¬ History.Fetches t l := by
    intro l hl
    rcases List.mem_cons.mp hl with rfl | hl
    · rintro ⟨uri, s, heq⟩
      cases heq
    · obtain ⟨a, b, rfl⟩ := List.append_of_mem hl
      rw [← List.cons_append, ← List.append_assoc] at h
      exact h.written (List.mem_append_right _ List.mem_cons_self)
  rw [History.after_append _ before, History.after_append _ before, History.after_fetched _ hquiet]
  rfl

theorem KeyRun.in_order_of_forward (h : KeyRun p boot clock ls c)
    (hforward : ∀ before between after, ls = before ++ between ++ after →
      ((History.booted boot).after before).cached ≤
        ((History.booted boot).after (before ++ between)).cached) :
    InOrder (.booted boot) ls := by
  rintro before t q jwks after rfl ⟨u, q', jwks', hwrite, hlt⟩
  obtain ⟨a, b, rfl⟩ := List.append_of_mem hwrite
  obtain ⟨d, hprior, -⟩ := Trace.append_iff.mp h
  have hfirst := KeyRun.write_number hprior
  have hsecond : ((History.booted boot).after ((a ++ .call u (.writeJwks q' jwks') () :: b) ++
      [.call t (.writeJwks q jwks) ()])).cached =
      ((History.booted boot).after (a ++ .call u (.writeJwks q' jwks') () :: b)).fetched t := by
    rw [History.after_snoc]
    rfl
  have hle := hforward (a ++ [.call u (.writeJwks q' jwks') ()])
    (b ++ [.call t (.writeJwks q jwks) ()]) after (by simp)
  have hwhole : (a ++ [.call u (.writeJwks q' jwks') ()]) ++ (b ++ [.call t (.writeJwks q jwks) ()]) =
      (a ++ .call u (.writeJwks q' jwks') () :: b) ++ [.call t (.writeJwks q jwks) ()] := by simp
  rw [hwhole] at hle
  omega

/-- Who fetched a set with its kid, which all later sets have too, finds it in the cache. -/
theorem KeyRun.found (h : KeyRun p boot clock ls c) (horder : InOrder (.booted boot) ls)
    {kid : String} (harrived : .arrive t kid ∈ ls)
    (hfetch : .call t (.fetchJwks uri) (.ok jwks) ∈ ls)
    (hkid : ∀ n, ((History.booted boot).after ls).fetched t ≤ n →
      n ≤ ((History.booted boot).after ls).latest →
      (findKey (((History.booted boot).after ls).sets n) kid).isSome)
    {r : Except String Jwk} (hr : c.result (Prog.machine OidcCalls _) t = some r) :
    ∃ jwk, r = .ok jwk ∧ jwk.keyId = some kid := by
  have hran := Trace.request_ran h harrived hr
  obtain ⟨old, e, now, hcalls, hverdict⟩ := resolveKey_refreshed hran (mem_callsOf.mpr hfetch)
  have hsplit : callsOf t ls = [⟨.readJwks p, old⟩, ⟨.elapsed p, e⟩,
      ⟨.fetchJwks p.jwksUri, .ok jwks⟩, ⟨.writeJwks p jwks, ()⟩, ⟨.resetLastRefresh p, ()⟩] ++
      ⟨.readJwks p, now⟩ :: [] := hcalls
  -- the second look of `t` at the cache, behind its own write
  obtain ⟨ms, ns, rfl, hms, hns⟩ := callsOf_split hsplit
  obtain ⟨d, hprior, hrest⟩ := Trace.append_iff.mp h
  obtain ⟨d', hread, -⟩ := Trace.cons_iff.mp hrest
  have hnow : now = ((History.booted boot).after ms).sets ((History.booted boot).after ms).cached := by
    have hanswer := hread.1.executed.answer
    rw [← (KeyRun.tracked hprior).cached]
    generalize d'.world.provider = w at hanswer
    cases hanswer
    rfl
  have hwrite : .call t (.writeJwks p jwks) () ∈ ms := by
    refine mem_callsOf.mp ?_
    rw [hms]
    simp
  have hcached : ((History.booted boot).after ms).fetched t ≤
      ((History.booted boot).after ms).cached := by
    obtain ⟨a, b, rfl⟩ := List.append_of_mem hwrite
    rw [← KeyRun.write_number hprior]
    have hparts : a ++ .call t (.writeJwks p jwks) () :: b =
        (a ++ [.call t (.writeJwks p jwks) ()]) ++ b := by simp
    rw [hparts] at hprior ⊢
    refine KeyRun.cached_forward hprior fun before u q s after heq => ?_
    exact horder before u q s (after ++ .call t (.readJwks p) now :: ns) (by rw [hparts, heq]; simp)
  have hquiet : ∀ l ∈ (.call t (.readJwks p) now :: ns : List KeyEvent), ¬ History.Fetches t l := by
    rintro l hl ⟨uri', s, rfl⟩
    rcases List.mem_cons.mp hl with heq | hl
    · cases heq
    · have hmem := mem_callsOf.mpr hl
      rw [hns] at hmem
      cases hmem
  have hbounded := History.after_bounded (History.booted_bounded boot) ms
  rw [History.after_append, History.after_fetched _ hquiet] at hkid
  have hfound := hkid _ hcached (Nat.le_trans hbounded.cached (History.after_latest _ _))
  rw [History.after_sets _ hbounded.cached, ← hnow] at hfound
  obtain ⟨jwk, hjwk⟩ := Option.isSome_iff_exists.mp hfound
  refine ⟨jwk, hverdict jwk hjwk, ?_⟩
  have hnamed := List.find?_some hjwk
  simpa using hnamed

/-- Refreshes stand exactly in the runs in which no request writes a set that it fetched before
a publication after another one has written what it fetched behind that publication. -/
theorem refreshes_stand_iff (p : OidcProvider) (boot : JwkSet) (clock : ℕ) (ls : List KeyEvent)
    (c : KeyState) (h : KeyRun p boot clock ls c) :
    RefreshesStand (.booted boot) ls c ↔ InOrder (.booted boot) ls := by
  constructor
  · exact fun hstand => h.in_order_of_forward hstand.forward
  · intro horder
    constructor
    · rintro before between after rfl
      obtain ⟨d, hprior, -⟩ := Trace.append_iff.mp h
      refine KeyRun.cached_forward hprior fun a t q jwks b heq => ?_
      exact horder a t q jwks (b ++ after) (by rw [heq, List.append_assoc]; rfl)
    · exact fun t kid uri jwks harrived hfetch hkid r hr => h.found horder harrived hfetch hkid hr

end Runs

section Crossing

/-- The key that the provider publishes while a fetch is under way. -/
def newKeys : JwkSet := ⟨[Sample.newJwk]⟩

/-- Request 0 has fetched the old keys. -/
def slowCalls : List OidcCalls.Event :=
  [⟨.readJwks Sample.provider, ⟨[]⟩⟩, ⟨.elapsed Sample.provider, (60 : ℕ)⟩,
    ⟨.fetchJwks Sample.provider.jwksUri, .ok ⟨[]⟩⟩]

/-- Request 1 fetches and writes the new ones. -/
def quickCalls : List OidcCalls.Event :=
  [⟨.readJwks Sample.provider, ⟨[]⟩⟩, ⟨.elapsed Sample.provider, (60 : ℕ)⟩,
    ⟨.fetchJwks Sample.provider.jwksUri, .ok newKeys⟩, ⟨.writeJwks Sample.provider newKeys, ()⟩,
    ⟨.resetLastRefresh Sample.provider, ()⟩]

/-- Then request 0 writes the old ones, and request 1 looks for its key. -/
def slowWrite : List OidcCalls.Event := [⟨.writeJwks Sample.provider ⟨[]⟩, ()⟩]

def quickLook (cached : JwkSet) : List OidcCalls.Event := [⟨.readJwks Sample.provider, cached⟩]

def overtaking : List KeyEvent :=
  [.env (.pass 60)] ++ (.arrive 0 "old" :: callsBy 0 slowCalls) ++ [.env (.publish newKeys)] ++
    (.arrive 1 "new" :: callsBy 1 quickCalls) ++ callsBy 0 slowWrite ++
    callsBy 1 (quickLook ⟨[]⟩)

theorem quietly {w : IssuerState} {o : OidcOp} {r : o.Reply} {w' : ProviderState}
    (h : OidcAnswers w.provider o r w') (hquiet : ∀ uri, o ≠ .fetchJwks uri) :
    oneIssuer.answers w ⟨o, r⟩ ⟨w', w.published⟩ := by
  refine ⟨h, rfl, fun uri jwks heq => ?_⟩
  cases heq
  exact absurd rfl (hquiet uri)

theorem published_fetched (w : IssuerState) (uri : String) :
    oneIssuer.answers w ⟨.fetchJwks uri, .ok w.published⟩ w := by
  refine ⟨.fetchJwks _ _ _, rfl, fun uri' jwks heq => ?_⟩
  cases heq
  rfl

theorem slowCalls_after : ∃ k, Prog.After (Sample.provider.resolveKey "old") slowCalls
    (.call (.writeJwks Sample.provider ⟨[]⟩) k) :=
  ⟨_, .call (.call (.call (.nil _)))⟩

theorem quickCalls_after : ∃ k, Prog.After (Sample.provider.resolveKey "new") quickCalls
    (.call (.readJwks Sample.provider) k) ∧ ∃ e, k ⟨[]⟩ = .ret (.error e) :=
  ⟨_, .call (.call (.call (.call (.call (.nil _))))), _, rfl⟩

theorem slowCalls_world : Trace oneIssuer.answers ⟨⟨⟨[]⟩, 0, 60⟩, ⟨[]⟩⟩ slowCalls
    ⟨⟨⟨[]⟩, 0, 60⟩, ⟨[]⟩⟩ :=
  Trace.cons_iff.mpr ⟨_, quietly (.readJwks _ _) (by simp),
    Trace.cons_iff.mpr ⟨_, quietly (.elapsed _ _) (by simp), .one (published_fetched _ _)⟩⟩

theorem slowWrite_world (w : IssuerState) : Trace oneIssuer.answers w slowWrite
    ⟨{ w.provider with jwks := ⟨[]⟩ }, w.published⟩ :=
  .one (quietly (.writeJwks _ _ _) (by simp))

theorem quickLook_world (w : IssuerState) :
    Trace oneIssuer.answers w (quickLook w.provider.jwks) w :=
  .one (quietly (.readJwks _ _) (by simp))

theorem quickCalls_world : Trace oneIssuer.answers ⟨⟨⟨[]⟩, 0, 60⟩, newKeys⟩ quickCalls
    ⟨⟨newKeys, 60, 60⟩, newKeys⟩ :=
  Trace.cons_iff.mpr ⟨_, quietly (.readJwks _ _) (by simp),
    Trace.cons_iff.mpr ⟨_, quietly (.elapsed _ _) (by simp),
      Trace.cons_iff.mpr ⟨_, published_fetched _ _,
        Trace.cons_iff.mpr ⟨_, quietly (.writeJwks _ _ _) (by simp),
          .one (quietly (.resetLastRefresh _ _) (by simp))⟩⟩⟩⟩

/-- Up to the publication: a minute after boot request 0 has fetched the old keys. -/
theorem slow_run {k : Unit → OidcAction (Except String Jwk)}
    (hslow : Prog.After (Sample.provider.resolveKey "old") slowCalls
      (.call (.writeJwks Sample.provider ⟨[]⟩) k)) :
    KeyRun Sample.provider ⟨[]⟩ 0
      ([.env (.pass 60)] ++ (.arrive 0 "old" :: callsBy 0 slowCalls))
      ⟨⟨⟨⟨[]⟩, 0, 60⟩, ⟨[]⟩⟩, Function.update (fun _ => none) 0
        (some (.call (.writeJwks Sample.provider ⟨[]⟩) k))⟩ := by
  have hpass : KeyRun Sample.provider ⟨[]⟩ 0 [.env (.pass 60)]
      ⟨⟨⟨⟨[]⟩, 0, 60⟩, ⟨[]⟩⟩, fun _ => none⟩ := .one ⟨.env rfl, trivial⟩
  exact hpass.trans (Trace.begun (fun _ _ _ => trivial) rfl hslow slowCalls_world)

theorem overtaking_run : ∃ c, KeyRun Sample.provider ⟨[]⟩ 0 overtaking c ∧
    ∃ e, c.result (Prog.machine OidcCalls (Except String Jwk)) 1 = some (.error e) := by
  obtain ⟨k, hslow⟩ := slowCalls_after
  obtain ⟨k', hquick, e, hlast⟩ := quickCalls_after
  let waiting : ℕ → Option (OidcAction (Except String Jwk)) :=
    Function.update (fun _ => none) 0 (some (.call (.writeJwks Sample.provider ⟨[]⟩) k))
  let both := Function.update waiting 1 (some (.call (.readJwks Sample.provider) k'))
  let written := Function.update both 0 (some (k ()))
  have hpublish : KeySegment Sample.provider ⟨⟨⟨⟨[]⟩, 0, 60⟩, ⟨[]⟩⟩, waiting⟩
      [.env (.publish newKeys)] ⟨⟨⟨⟨[]⟩, 0, 60⟩, newKeys⟩, waiting⟩ := .one ⟨.env rfl, trivial⟩
  have hsecond : KeySegment Sample.provider ⟨⟨⟨⟨[]⟩, 0, 60⟩, newKeys⟩, waiting⟩
      (.arrive 1 "new" :: callsBy 1 quickCalls) ⟨⟨⟨newKeys, 60, 60⟩, newKeys⟩, both⟩ :=
    Trace.begun (fun _ _ _ => trivial) rfl hquick quickCalls_world
  have hwrite : KeySegment Sample.provider ⟨⟨⟨newKeys, 60, 60⟩, newKeys⟩, both⟩
      (callsBy 0 slowWrite) ⟨⟨⟨⟨[]⟩, 60, 60⟩, newKeys⟩, written⟩ :=
    Trace.undisturbed (fun _ _ _ _ => trivial) rfl (.call (.nil _)) (slowWrite_world _)
  have hlook : KeySegment Sample.provider ⟨⟨⟨⟨[]⟩, 60, 60⟩, newKeys⟩, written⟩
      (callsBy 1 (quickLook ⟨[]⟩)) ⟨⟨⟨⟨[]⟩, 60, 60⟩, newKeys⟩,
        Function.update written 1 (some (k' ⟨[]⟩))⟩ :=
    Trace.undisturbed (fun _ _ _ _ => trivial) rfl (.call (.nil _)) (quickLook_world _)
  refine ⟨_, ((((slow_run hslow).trans hpublish).trans hsecond).trans hwrite).trans hlook, e, ?_⟩
  simp [Config.result, hlast, progView]

theorem overtaking_lost {c : KeyState} {e : String}
    (hrefused : c.result (Prog.machine OidcCalls (Except String Jwk)) 1 = some (.error e)) :
    ¬ RefreshesStand (.booted ⟨[]⟩) overtaking c := by
  intro hstand
  have hkid : ∀ n, ((History.booted ⟨[]⟩).after overtaking).fetched 1 ≤ n →
      n ≤ ((History.booted ⟨[]⟩).after overtaking).latest →
      (findKey (((History.booted ⟨[]⟩).after overtaking).sets n) "new").isSome := by
    intro n hfirst hlast
    have hone : n = 1 := Nat.le_antisymm hlast hfirst
    rw [hone]
    rfl
  obtain ⟨jwk, hfound, -⟩ := hstand.found 1 "new" Sample.provider.jwksUri newKeys
    (by simp [overtaking]) (by simp [overtaking, callsBy, quickCalls]) hkid _ hrefused
  cases hfound

/-- A run of two requests in which the older keys stay in the cache. -/
theorem newer_keys_lost : ∃ ls c, KeyRun Sample.provider ⟨[]⟩ 0 ls c ∧
    ¬ RefreshesStand (.booted ⟨[]⟩) ls c := by
  obtain ⟨c, hrun, e, hrefused⟩ := overtaking_run
  exact ⟨overtaking, c, hrun, overtaking_lost hrefused⟩

/-- The same requests, but request 0 writes the old keys before the new ones are published. -/
def inTurn : List KeyEvent :=
  [.env (.pass 60)] ++ (.arrive 0 "old" :: callsBy 0 slowCalls) ++ callsBy 0 slowWrite ++
    [.env (.publish newKeys)] ++ (.arrive 1 "new" :: callsBy 1 quickCalls) ++
    callsBy 1 (quickLook newKeys)

theorem inTurn_run : ∃ c, KeyRun Sample.provider ⟨[]⟩ 0 inTurn c := by
  obtain ⟨k, hslow⟩ := slowCalls_after
  obtain ⟨k', hquick, -⟩ := quickCalls_after
  let waiting : ℕ → Option (OidcAction (Except String Jwk)) :=
    Function.update (fun _ => none) 0 (some (.call (.writeJwks Sample.provider ⟨[]⟩) k))
  let written := Function.update waiting 0 (some (k ()))
  let both := Function.update written 1 (some (.call (.readJwks Sample.provider) k'))
  have hwrite : KeySegment Sample.provider ⟨⟨⟨⟨[]⟩, 0, 60⟩, ⟨[]⟩⟩, waiting⟩ (callsBy 0 slowWrite)
      ⟨⟨⟨⟨[]⟩, 0, 60⟩, ⟨[]⟩⟩, written⟩ :=
    Trace.undisturbed (fun _ _ _ _ => trivial) rfl (.call (.nil _)) (slowWrite_world _)
  have hpublish : KeySegment Sample.provider ⟨⟨⟨⟨[]⟩, 0, 60⟩, ⟨[]⟩⟩, written⟩
      [.env (.publish newKeys)] ⟨⟨⟨⟨[]⟩, 0, 60⟩, newKeys⟩, written⟩ := .one ⟨.env rfl, trivial⟩
  have hsecond : KeySegment Sample.provider ⟨⟨⟨⟨[]⟩, 0, 60⟩, newKeys⟩, written⟩
      (.arrive 1 "new" :: callsBy 1 quickCalls) ⟨⟨⟨newKeys, 60, 60⟩, newKeys⟩, both⟩ :=
    Trace.begun (fun _ _ _ => trivial) rfl hquick quickCalls_world
  have hlook : KeySegment Sample.provider ⟨⟨⟨newKeys, 60, 60⟩, newKeys⟩, both⟩
      (callsBy 1 (quickLook newKeys)) ⟨⟨⟨newKeys, 60, 60⟩, newKeys⟩,
        Function.update both 1 (some (k' newKeys))⟩ :=
    Trace.undisturbed (fun _ _ _ _ => trivial) rfl (.call (.nil _)) (quickLook_world _)
  exact ⟨_, ((((slow_run hslow).trans hwrite).trans hpublish).trans hsecond).trans hlook⟩

/-- The step puts a set into the cache. -/
def writes : KeyEvent → Bool
  | .call _ (.writeJwks _ _) _ => true
  | _ => false

theorem inOrder_snoc {h : History} {ls : List KeyEvent} {l : KeyEvent} (horder : InOrder h ls)
    (hlast : ∀ t p jwks, l = .call t (.writeJwks p jwks) () → ¬ Overtaken h ls t) :
    InOrder h (ls ++ [l]) := by
  intro before t p jwks after heq
  rcases List.eq_nil_or_concat after with rfl | ⟨between, last, rfl⟩
  · obtain ⟨rfl, hl⟩ := List.append_inj' heq rfl
    exact hlast t p jwks (List.singleton_inj.mp hl)
  · rw [List.concat_eq_append, ← List.cons_append, ← List.append_assoc] at heq
    exact horder before t p jwks between (List.append_inj' heq rfl).1

theorem InOrder.quiet {h : History} {ls ms : List KeyEvent} (horder : InOrder h ls)
    (hquiet : ms.all (fun l => !writes l) = true) : InOrder h (ls ++ ms) := by
  induction ms using List.reverseRecOn with
  | nil =>
    rw [List.append_nil]
    exact horder
  | append_singleton ms l ih =>
    rw [List.all_append, Bool.and_eq_true] at hquiet
    rw [← List.append_assoc]
    refine inOrder_snoc (ih hquiet.1) fun t p jwks hl => ?_
    subst hl
    cases hquiet.2

theorem inTurn_inOrder : InOrder (.booted ⟨[]⟩) inTurn := by
  let fetched : List KeyEvent := [.env (.pass 60)] ++ (.arrive 0 "old" :: callsBy 0 slowCalls)
  let fetchedTwice : List KeyEvent := fetched ++ callsBy 0 slowWrite ++
    ([.env (.publish newKeys)] ++ (.arrive 1 "new" :: callsBy 1 (quickCalls.take 3)))
  have hnone : InOrder (.booted ⟨[]⟩) ([] : List KeyEvent) := by
    rintro (_ | ⟨l, before⟩) t p jwks after heq
    · cases heq
    · cases heq
  have hfirst : ¬ Overtaken (.booted ⟨[]⟩) fetched 0 := by
    rintro ⟨u, p, jwks, hmem, -⟩
    have hnone : fetched.all (fun l => !writes l) = true := rfl
    have hquiet := List.all_eq_true.mp hnone _ hmem
    cases hquiet
  have hsecond : ¬ Overtaken (.booted ⟨[]⟩) fetchedTwice 1 := by
    -- it has fetched the latest set
    rintro ⟨u, p, jwks, -, hlater⟩
    have hbounded := History.after_bounded (History.booted_bounded ⟨[]⟩) fetchedTwice
    exact absurd (hbounded.fetched u) (Nat.not_le.mpr hlater)
  have hwritten : InOrder (.booted ⟨[]⟩) (fetched ++ callsBy 0 slowWrite) :=
    inOrder_snoc (hnone.quiet rfl) fun t p jwks hl => by
      cases hl
      exact hfirst
  have hwrittenTwice : InOrder (.booted ⟨[]⟩) (fetchedTwice ++
      [.call 1 (.writeJwks Sample.provider newKeys) ()]) :=
    inOrder_snoc (hwritten.quiet rfl) fun t p jwks hl => by
      cases hl
      exact hsecond
  have hrest : (callsBy 1 (quickCalls.drop 4 ++ quickLook newKeys) : List KeyEvent).all
      (fun l => !writes l) = true := rfl
  exact hwrittenTwice.quiet hrest

/-- In turn the refreshes stand, one behind the other; overtaken, they do not. -/
theorem refreshes_stand_sample :
    (∃ c, KeyRun Sample.provider ⟨[]⟩ 0 inTurn c ∧ RefreshesStand (.booted ⟨[]⟩) inTurn c) ∧
      ¬ InOrder (.booted ⟨[]⟩) overtaking := by
  obtain ⟨c, hrun⟩ := inTurn_run
  obtain ⟨d, hovertaking, e, hrefused⟩ := overtaking_run
  refine ⟨⟨c, hrun, (refreshes_stand_iff _ _ _ _ _ hrun).mpr inTurn_inOrder⟩, fun horder => ?_⟩
  exact overtaking_lost hrefused ((refreshes_stand_iff _ _ _ _ _ hovertaking).mpr horder)

end Crossing

end SvcAuth
