import SvcAuth.BearerStore
import SvcAuth.PresentedBearer
import SvcAuth.SampleContract
import Mathlib.Data.Set.Function

/-! Publishers and gatekeeper as one map from tokens to entries. The bucket represents the
map, every completed call of a publisher updates it, and the service answers by it. -/
namespace SvcAuth
open Interleave TextFormats

section Map

/-- The entry a call leaves under its token. -/
def PublisherCall.entry : PublisherCall → Option BearerEntry
  | .putBearer _ entry => some entry
  | .deleteBearer _ => none

abbrev EntryMap := String → Option BearerEntry

def PublisherCall.apply (m : EntryMap) (call : PublisherCall) : EntryMap :=
  Function.update m call.token call.entry

/-- The calls on a token. -/
def callsOn (token : String) (calls : List PublisherCall) : List PublisherCall :=
  calls.filter fun call => call.token = token

/-- What the last call on a token left under it. -/
def lastEntry (token : String) (calls : List PublisherCall) : Option BearerEntry :=
  (callsOn token calls).getLast?.bind PublisherCall.entry

theorem foldl_apply (calls : List PublisherCall) (token : String) :
    calls.foldl PublisherCall.apply (fun _ => none) token = lastEntry token calls := by
  induction calls using List.reverseRecOn with
  | nil => rfl
  | append_singleton calls call ih =>
    rw [List.foldl_append, List.foldl_cons, List.foldl_nil, PublisherCall.apply, lastEntry, callsOn,
      List.filter_append]
    by_cases hsame : call.token = token
    · subst hsame
      simp
    · rw [Function.update_of_ne (Ne.symm hsame), ih]
      simp [hsame, lastEntry, callsOn]

theorem lastEntry_other {token : String} {calls more : List PublisherCall}
    (h : ∀ call ∈ more, call.token ≠ token) : lastEntry token (calls ++ more) =
      lastEntry token calls := by
  have hnone : more.filter (fun call => call.token = token) = [] := by
    simpa [List.filter_eq_nil_iff] using h
  rw [lastEntry, callsOn, List.filter_append, hnone, List.append_nil]
  rfl

end Map

section Refinement
variable (W : ContractDeps) (key : BearerSealKey)

/-- The program runs to its end over the bucket, which answers as a map. -/
def Completes {α : Type} (p : WireAction α) (w : WireWorld) (a : α) (w' : WireWorld) : Prop :=
  ∃ tr, Prog.Ran p tr a ∧
    Trace (fun w (e : WireCalls.Event) w' => MapAnswers W w e.1 e.2 w') w tr w'

/-- The calls of publishers, one after the other, each of which completes. -/
abbrev PublisherRun : WireWorld → List PublisherCall → WireWorld → Prop :=
  Trace fun w call w' => Completes W (call.run W key) w (.ok ()) w'

/-- No token has a bearer. -/
def WireWorld.Bare (w : WireWorld) : Prop := ∀ token, w.bearers (bearerKey W token) = none

/-- The bucket represents the map on these tokens. -/
def Represents (tokens : Set String) (m : EntryMap) (w : WireWorld) : Prop :=
  ∀ token ∈ tokens, resolveRead W key token (w.fetch W (bearerKey W token)) = .ok (m token)

variable {W key} {tokens : Set String} {m : EntryMap} {w w' : WireWorld} {token : String}

theorem bearerKey_inj {token' : String} (h : bearerKey W token = bearerKey W token') :
    W.bearerTokenKey token = W.bearerTokenKey token' := by
  have htext : bearerTokenKvKey W token = bearerTokenKvKey W token' := congrArg KvKey.text h
  exact (String.append_right_inj _).mp htext

theorem fetch_store_same (w : WireWorld) (k : KvKey) (sealed : SealedBearer) :
    (w.store k (some (sealed.store W))).fetch W k = .ok (some sealed) := by
  simp [WireWorld.fetch, WireWorld.store]

theorem fetch_congr {w w' : WireWorld} {k : KvKey} (h : w.bearers k = w'.bearers k) :
    w.fetch W k = w'.fetch W k := by
  simp only [WireWorld.fetch, h]

theorem fetch_removed (w : WireWorld) (k : KvKey) : (w.store k none).fetch W k = .ok none := by
  simp [WireWorld.fetch, WireWorld.store]

theorem fetch_store_other {k k' : KvKey} (h : k' ≠ k) (bytes : Option Bytes) :
    (w.store k bytes).fetch W k' = w.fetch W k' := by
  simp [WireWorld.fetch, WireWorld.store, Function.update_of_ne h]

theorem call_completes {call : PublisherCall} (h : Completes W (call.run W key) w (.ok ()) w') :
    ∃ bytes, w' = w.store (bearerKey W call.token) bytes ∧
      resolveRead W key call.token (w'.fetch W (bearerKey W call.token)) = .ok call.entry := by
  obtain ⟨tr, hran, htr⟩ := h
  cases call with
  | putBearer token entry =>
    obtain ⟨json, nonce, sealed, hjson, hsealed, rfl⟩ := putBearer_ran.mp hran
    obtain ⟨w₁, hnonce, hrest⟩ := Trace.cons_iff.mp htr
    obtain ⟨w₂, hput, hnil⟩ := Trace.cons_iff.mp hrest
    rw [Trace.nil_iff] at hnil
    subst hnil
    cases hnonce
    cases hput
    refine ⟨_, rfl, ?_⟩
    rw [PublisherCall.token, fetch_store_same, resolveRead, open_sealed hjson hsealed]
    rfl
  | deleteBearer token =>
    rw [deleteBearer_ran.mp hran] at htr
    obtain ⟨w₁, hretract, hnil⟩ := Trace.cons_iff.mp htr
    rw [Trace.nil_iff] at hnil
    subst hnil
    cases hretract
    refine ⟨_, rfl, ?_⟩
    rw [PublisherCall.token, fetch_removed]
    rfl

/-- One call is one update of the map. -/
theorem Represents.call {call : PublisherCall} (hinj : Set.InjOn W.bearerTokenKey tokens)
    (hcall : call.token ∈ tokens) (h : Represents W key tokens m w)
    (hdone : Completes W (call.run W key) w (.ok ()) w') :
    Represents W key tokens (call.apply m) w' := by
  obtain ⟨bytes, rfl, hown⟩ := call_completes hdone
  intro token htoken
  by_cases hsame : token = call.token
  · subst hsame
    rw [hown, PublisherCall.apply, Function.update_self]
  · -- the call wrote under another key
    have hkey : bearerKey W token ≠ bearerKey W call.token := by
      intro hkey
      exact hsame (hinj htoken hcall (bearerKey_inj hkey))
    rw [fetch_store_other hkey, PublisherCall.apply, Function.update_of_ne hsame]
    exact h token htoken

/-- After any calls the bucket represents the map they make. -/
theorem PublisherRun.represents {calls : List PublisherCall}
    (hinj : Set.InjOn W.bearerTokenKey tokens) (hbare : w.Bare W)
    (hcalls : ∀ call ∈ calls, call.token ∈ tokens) (h : PublisherRun W key w calls w') :
    Represents W key tokens (calls.foldl PublisherCall.apply fun _ => none) w' := by
  induction h with
  | nil =>
    intro token _
    rw [WireWorld.fetch, hbare token]
    rfl
  | snoc prior last ih =>
    rw [List.foldl_append]
    have hprior := ih fun call hcall => hcalls call (List.mem_append_left _ hcall)
    exact hprior.call hinj (hcalls _ List.mem_concat_self) last

theorem lookup_completes {α : Type} {k : KvKey} {f : Except FabricError (Option SealedBearer) → α}
    {a : α} : (∃ w', Completes W (.call (.get k) fun read => .ret (f read)) w a w') ↔
      a = f (w.fetch W k) := by
  constructor
  · rintro ⟨w', tr, hran, htr⟩
    obtain ⟨read, rest, rfl, h₁⟩ := Prog.ran_call.mp hran
    obtain ⟨rfl, rfl⟩ := Prog.ran_ret.mp h₁
    obtain ⟨w₁, hget, -⟩ := Trace.cons_iff.mp htr
    cases hget
    rfl
  · rintro rfl
    exact ⟨w, _, .call (.ret _), Trace.one (.get w k)⟩

theorem Represents.resolve (h : Represents W key tokens m w) (htoken : token ∈ tokens)
    {r : Except BearerValidatorError (Option BearerEntry)} :
    (∃ w', Completes W (resolve W key token) w r w') ↔ r = .ok (m token) := by
  rw [resolve_eq, lookup_completes, h token htoken]

end Refinement

section Gatekeeper
variable (D : Deps)

/-- The answer of `/auth/check` to a bearer, by what it stands for. -/
def bearerAnswer : Option BearerEntry → Response
  | some entry => ⟨200, [], [(actorHeader entry.actor, D.uuidToString entry.actor.id),
      ("x-auth-token-id", D.uuidToString entry.tokenId)], .null⟩
  | none => .ofStatus 401

/-- The answer by what the validator said. -/
def validatorAnswer : Except BearerValidatorError (Option BearerEntry) → Response
  | .ok entry => bearerAnswer D entry
  | .error _ => .ofStatus 502

/-- A token that can stand behind a scheme: not empty, visible ASCII without spaces. -/
def Presentable (token : String) : Prop :=
  token ≠ "" ∧ ∀ c ∈ token.toList, 33 ≤ c.toNat ∧ c.toNat < 127

variable {W : ContractDeps} {key : BearerSealKey} {S : AppState} {headers : HeaderMap}
  {value scheme token : String}

theorem resolvedBearerResponse_eq (D : Deps) (entry : BearerEntry) :
    resolvedBearerResponse D entry = bearerAnswer D (some entry) := by
  obtain ⟨actor, tokenId⟩ := entry
  cases actor <;> rfl

theorem carryOut_resolve (W : ContractDeps) (key : BearerSealKey) (token : String) :
    carryOut W key (.resolve token) = .call (.get (bearerKey W token)) fun read =>
      .ret ((resolveRead W key token read).mapError (BearerValidatorError.toString W)) := by
  unfold carryOut
  simp only [resolve_eq]
  rfl

/-- Without an access cookie a check makes the one call of the validator. -/
theorem serveWire_bearer (hcookie : extractAccessCookie headers S.cookieConfig = none)
    (hvalue : headers.authorization >>= HeaderValue.toStr = some value) :
    serveWire W key S (.check headers) = .call (.get (bearerKey W (stripBearer value))) fun read =>
      .ret (validatorAnswer W.toDeps (resolveRead W key (stripBearer value) read)) := by
  have hserve : serve W.toDeps S (.check headers) = handleBearer W.toDeps value :=
    authCheckHandler_bearer hcookie hvalue
  rw [serveWire, hserve, handleBearer, Prog.op_bind, Prog.interpret_call, carryOut_resolve,
    Prog.call_bind]
  congr 1
  funext read
  rcases resolveRead W key (stripBearer value) read with e | _ | entry
  · rfl
  · rfl
  · exact congrArg Prog.ret (resolvedBearerResponse_eq W.toDeps entry)

theorem plain_toLower {c : Char} (h : plain c.toLower = true) : plain c = true := by
  unfold Char.toLower at h
  split at h
  · rename_i hupper
    have hlow : 65 ≤ c.toNat := UInt32.le_iff_toNat_le.mp hupper.1
    have hhigh : c.toNat ≤ 90 := UInt32.le_iff_toNat_le.mp hupper.2
    exact plain_iff.mpr (.inl (by omega))
  · exact h

theorem stripBearer_scheme (hscheme : eqIgnoreAsciiCase scheme.toList "Bearer".toList = true)
    (token : String) : stripBearer (scheme ++ " " ++ token) = token := by
  have hmap : scheme.toList.map Char.toLower = "bearer".toList := of_decide_eq_true hscheme
  have hlength : scheme.toList.length = 6 := by
    rw [← List.length_map Char.toLower, hmap]
    rfl
  have hsplit : (scheme ++ " " ++ token).toList = (scheme.toList ++ [' ']) ++ token.toList := by
    simp
  have hfront : (scheme.toList ++ [' ']).length = 7 := by simp [hlength]
  have hcase : eqIgnoreAsciiCase (scheme.toList ++ [' ']) "bearer ".toList = true := by
    refine decide_eq_true ?_
    rw [List.map_append, hmap]
    rfl
  unfold stripBearer
  simp only [hsplit, ← hfront, List.take_left, List.drop_left, hcase, String.ofList_toList]
  exact if_pos ⟨by simp, trivial⟩

theorem toStr_scheme (hscheme : eqIgnoreAsciiCase scheme.toList "Bearer".toList = true)
    (htoken : Presentable token) :
    HeaderValue.toStr (utf8 (scheme ++ " " ++ token)) = some (scheme ++ " " ++ token) := by
  have hmap : scheme.toList.map Char.toLower = "bearer".toList := of_decide_eq_true hscheme
  have hplain : (scheme ++ " " ++ token).toList.all plain = true := by
    simp only [String.toList_append, List.all_append, Bool.and_eq_true]
    refine ⟨⟨?_, rfl⟩, ?_⟩
    · have hlower : ("bearer".toList).all plain = true := by decide
      rw [← hmap, List.all_map] at hlower
      exact List.all_eq_true.mpr fun c hc => plain_toLower (List.all_eq_true.mp hlower c hc)
    · refine List.all_eq_true.mpr fun c hc => plain_iff.mpr (.inl ?_)
      have hvisible := htoken.2 c hc
      omega
  have htext := toStr_utf8 (scheme ++ " " ++ token).toList
  rw [if_pos hplain, String.ofList_toList] at htext
  exact htext

/-- A check that presents a token without an access cookie answers by the map. -/
theorem Represents.check {tokens : Set String} {m : EntryMap} {w : WireWorld}
    (h : Represents W key tokens m w) (htoken : token ∈ tokens) (hpresentable : Presentable token)
    (hscheme : eqIgnoreAsciiCase scheme.toList "Bearer".toList = true)
    (hcookie : extractAccessCookie headers S.cookieConfig = none)
    (hauth : headers.authorization = some (utf8 (scheme ++ " " ++ token))) {r : Response} :
    (∃ w', Completes W (serveWire W key S (.check headers)) w r w') ↔
      r = bearerAnswer W.toDeps (m token) := by
  have hvalue : headers.authorization >>= HeaderValue.toStr = some (scheme ++ " " ++ token) := by
    rw [hauth]
    exact toStr_scheme hscheme hpresentable
  rw [serveWire_bearer hcookie hvalue]
  refine lookup_completes.trans ?_
  rw [stripBearer_scheme hscheme, h token htoken]
  rfl

/-- After any completed calls of the publishers a token resolves to what the last call on it
left, calls on other tokens change nothing, and a check that presents the token behind a
scheme in any casing answers with that entry or refuses. -/
theorem bearers_form_map (W : ContractDeps) (S : AppState) (key : BearerSealKey)
    (tokens : Set String) (hinj : Set.InjOn W.bearerTokenKey tokens) (w w' : WireWorld)
    (hbare : w.Bare W) (calls : List PublisherCall) (h : PublisherRun W key w calls w')
    (hcalls : ∀ call ∈ calls, call.token ∈ tokens) (token : String) (htoken : token ∈ tokens) :
    (∀ r, (∃ w'', Completes W (resolve W key token) w' r w'') ↔
      r = .ok (lastEntry token calls)) ∧
    (∀ more w₁, PublisherRun W key w' more w₁ → (∀ call ∈ more, call.token ∈ tokens) →
      (∀ call ∈ more, call.token ≠ token) → ∀ r,
        (∃ w'', Completes W (resolve W key token) w₁ r w'') ↔ r = .ok (lastEntry token calls)) ∧
    (Presentable token → ∀ (scheme : String) (headers : HeaderMap),
      eqIgnoreAsciiCase scheme.toList "Bearer".toList = true →
      extractAccessCookie headers S.cookieConfig = none →
      headers.authorization = some (utf8 (scheme ++ " " ++ token)) → ∀ r,
        (∃ w'', Completes W (serveWire W key S (.check headers)) w' r w'') ↔
          r = bearerAnswer W.toDeps (lastEntry token calls)) := by
  have hrepresents := PublisherRun.represents hinj hbare hcalls h
  refine ⟨fun r => ?_, fun more w₁ hmore hin hother r => ?_,
    fun hpresentable scheme headers hscheme hcookie hauth r => ?_⟩
  · rw [hrepresents.resolve htoken, foldl_apply]
  · have hall : ∀ call ∈ calls ++ more, call.token ∈ tokens := by
      intro call hcall
      exact (List.mem_append.mp hcall).elim (hcalls call) (hin call)
    have hlater := PublisherRun.represents hinj hbare hall (Trace.trans h hmore)
    rw [hlater.resolve htoken, foldl_apply, lastEntry_other hother]
  · rw [hrepresents.check htoken hpresentable hscheme hcookie hauth, foldl_apply]

end Gatekeeper

section Sample

/-- The calls of a put of the sample entry for the token `t`. -/
def Sample.putCalls : List WireCalls.Event :=
  [⟨.generateNonce, Sample.nonce⟩,
    ⟨.put (bearerKey Sample.contract "t") Sample.sealed, .ok ()⟩]

/-- The bucket behind it, empty before. -/
def Sample.stored : WireWorld :=
  WireWorld.store ⟨.initial Sample.moment, fun _ => none⟩ (bearerKey Sample.contract "t")
    (some (Sample.sealed.store Sample.contract))

theorem Sample.put_ran : Prog.Ran (putBearer Sample.contract Sample.sealKey "t" Sample.entry)
    Sample.putCalls (.ok ()) :=
  putBearer_ran.mpr ⟨_, Sample.nonce, Sample.sealed, rfl, Sample.sealed_seal, rfl⟩

theorem Sample.put_stored : Trace
    (fun w (e : WireCalls.Event) w' => MapAnswers Sample.contract w e.1 e.2 w')
    ⟨.initial Sample.moment, fun _ => none⟩ Sample.putCalls Sample.stored :=
  Trace.cons_iff.mpr ⟨_, .generateNonce _ _, Trace.one (.put _ _ _)⟩

theorem Sample.published : PublisherRun Sample.contract Sample.sealKey
    ⟨.initial Sample.moment, fun _ => none⟩ [.putBearer "t" Sample.entry] Sample.stored :=
  Trace.one ⟨_, Sample.put_ran, Sample.put_stored⟩

theorem bearers_form_map_sample : ∃ w, PublisherRun Sample.contract Sample.sealKey
      ⟨.initial Sample.moment, fun _ => none⟩ [.putBearer "t" Sample.entry] w ∧
    (∃ w', Completes Sample.contract (resolve Sample.contract Sample.sealKey "t") w
      (.ok (some Sample.entry)) w') ∧
    ∃ w', Completes Sample.contract (serveWire Sample.contract Sample.sealKey Sample.state
      (.check ⟨none, some (utf8 "BEARER t")⟩)) w (bearerAnswer Sample.deps (some Sample.entry)) w' := by
  have hpresentable : Presentable "t" := by
    refine ⟨by decide, fun c hc => ?_⟩
    rw [List.mem_singleton.mp hc]
    decide
  obtain ⟨hresolve, -, hcheck⟩ := bearers_form_map Sample.contract Sample.state Sample.sealKey {"t"}
    (Set.injOn_singleton _ _) _ _ (fun _ => rfl) _ Sample.published (by simp [PublisherCall.token])
    "t" rfl
  exact ⟨_, Sample.published, (hresolve _).mpr rfl,
    (hcheck hpresentable "BEARER" _ (by decide) rfl rfl _).mpr rfl⟩

end Sample

end SvcAuth
