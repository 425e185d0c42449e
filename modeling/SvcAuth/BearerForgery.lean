import SvcAuth.BearerMap

/-! Publishers and the service over a bucket that anyone may write. If a ciphertext decrypts
only where an honest seal produced it, then what resolves for a token was put for it. -/
namespace SvcAuth
open Interleave TextFormats StandardBase64

section Wire

inductive WireRequest
  | publish (call : PublisherCall)
  | resolve (token : String)
  | service (q : Request)
  deriving DecidableEq, Repr

inductive WireResponse
  | published (r : Except BearerPublishError Unit)
  | resolved (r : Except BearerValidatorError (Option BearerEntry))
  | served (r : Response)

/-- Time passes, or the bucket is left with any values under any keys. -/
inductive Disturbance
  | passage (e : Passage)
  | tamper (bearers : KvKey → Option Bytes)

inductive Disturbs : WireWorld → Disturbance → WireWorld → Prop
  | passage {w : WireWorld} {e : Passage} {s : World} (h : Passes w.service e s) :
      Disturbs w (.passage e) { w with service := s }
  | tamper (w : WireWorld) (bearers : KvKey → Option Bytes) :
      Disturbs w (.tamper bearers) { w with bearers := bearers }

variable (W : ContractDeps) (S : AppState) (key : BearerSealKey)

def wire : System WireCalls WireWorld Disturbance := ⟨WireAnswers W, Disturbs⟩

def startWire : WireRequest → WireAction WireResponse
  | .publish call => do return .published (← call.run W key)
  | .resolve token => do return .resolved (← SvcAuth.resolve W key token)
  | .service q => do return .served (← serveWire W key S q)

abbrev WireEvent := Label WireCalls WireRequest Disturbance

abbrev WireState := Config (WireAction WireResponse) WireWorld

/-- A run of publishers and service from any bucket, under any writes by others. -/
abbrev WireRun (w : WireWorld) : List WireEvent → WireState → Prop :=
  Trace (GuardedStep (wire W) (Prog.machine WireCalls WireResponse) (startWire W S key)
    fun _ _ _ => True) (.initial w)

abbrev WireState.response (c : WireState) (t : ℕ) : Option WireResponse :=
  c.result (Prog.machine WireCalls WireResponse) t

/-- The bearer in the `Authorization` header. -/
def presentedBearer (headers : HeaderMap) : Option String :=
  (headers.authorization >>= HeaderValue.toStr).map stripBearer

/-- The token a request is about. -/
def WireRequest.token : WireRequest → Option String
  | .publish call => some call.token
  | .resolve token => some token
  | .service (.check headers) => presentedBearer headers
  | .service _ => none

end Wire

section Assumptions
variable (W : ContractDeps) (key : BearerSealKey)

/-- A publisher was asked to put this entry, and drew this nonce to seal it. -/
def PutUnder (ls : List WireEvent) (token : String) (entry : BearerEntry) (nonce : Nonce) : Prop :=
  ∃ u, .arrive u (.publish (.putBearer token entry)) ∈ ls ∧ .call u .generateNonce nonce ∈ ls

/-- A publisher's seal produced this ciphertext, with this nonce and this data. -/
def HonestSeal (ls : List WireEvent) (nonce : Nonce) (aad ciphertext : Bytes) : Prop :=
  ∃ token entry json, PutUnder ls token entry nonce ∧ tokenAad W token = aad ∧
    W.entryToJson entry = .ok json ∧ W.encrypt key nonce aad json = some ciphertext

/-- The AEAD is ideal in the run: what decrypts for a request was sealed before it was read,
with the nonce and the data it decrypts under. -/
def IdealAead (ls : List WireEvent) : Prop :=
  ∀ before t k nonce ciphertext after q token plaintext,
    ls = before ++ .call t (.get k) (.ok (some (envelope nonce ciphertext))) :: after →
    .arrive t q ∈ before → q.token = some token →
    W.decrypt key nonce (tokenAad W token) ciphertext = some plaintext →
    HonestSeal W key before nonce (tokenAad W token) ciphertext

/-- The tokens requests are about are among these. -/
def About (tokens : Set String) (ls : List WireEvent) : Prop :=
  ∀ t q token, .arrive t q ∈ ls → q.token = some token → token ∈ tokens

/-- Request `t` yielded the entry for the token: it resolved to it, or a check named its
actor and its token id. -/
def Yields (D : Deps) (ls : List WireEvent) (c : WireState) (t : ℕ) (token : String)
    (entry : BearerEntry) : Prop :=
  (.arrive t (.resolve token) ∈ ls ∧ c.response t = some (.resolved (.ok (some entry)))) ∨
    ∃ headers r, .arrive t (.service (.check headers)) ∈ ls ∧
      presentedBearer headers = some token ∧ c.response t = some (.served r) ∧
      r.headers = (bearerAnswer D (some entry)).headers

end Assumptions

section Reads
variable {W : ContractDeps} {S : AppState} {key : BearerSealKey} {token : String}
  {entry : BearerEntry} {headers : HeaderMap} {r : Response}

theorem resolveRead_some {read : Except FabricError (Option SealedBearer)} :
    resolveRead W key token read = .ok (some entry) ↔
      ∃ sealed, read = .ok (some sealed) ∧ SealedBearer.open W key token sealed = .ok entry := by
  rcases read with e | _ | sealed
  · simp [resolveRead]
  · simp [resolveRead]
  · cases hopened : SealedBearer.open W key token sealed <;>
      simp [resolveRead, hopened, Except.toOption]

theorem bearerAnswer_inj {D : Deps} {entry' : BearerEntry}
    (h : (bearerAnswer D (some entry)).headers = (bearerAnswer D (some entry')).headers) :
    entry = entry' := by
  obtain ⟨actor, tokenId⟩ := entry
  obtain ⟨actor', tokenId'⟩ := entry'
  simp only [bearerAnswer, List.cons.injEq, Prod.mk.injEq, and_true, true_and] at h
  obtain ⟨⟨hkind, hid⟩, htokenId⟩ := h
  have hid' := D.uuidToString_injective hid
  have htokenId' := D.uuidToString_injective htokenId
  subst htokenId'
  cases actor with
  | Human id =>
    cases actor' with
    | Human id' =>
      cases hid'
      rfl
    | Service id' => simp [actorHeader] at hkind
  | Service id =>
    cases actor' with
    | Human id' => simp [actorHeader] at hkind
    | Service id' =>
      cases hid'
      rfl

/-- A check that names an actor has resolved the presented bearer, and did nothing else. -/
theorem check_named {D : Deps} {es : List Calls.Event}
    (h : Prog.Ran (authCheckHandler D S headers) es r) (hnamed : r.headers ≠ []) :
    ∃ token entry, presentedBearer headers = some token ∧
      es = [⟨.resolve token, .ok (some entry)⟩] ∧ r = bearerAnswer D (some entry) := by
  cases hcookie : extractAccessCookie headers S.cookieConfig with
  | some access =>
    obtain ⟨-, -, -, hnone, -⟩ := cookie_ran hcookie h
    exact absurd hnone hnamed
  | none =>
    cases hvalue : headers.authorization >>= HeaderValue.toStr with
    | none =>
      rw [authCheckHandler_anonymous hcookie hvalue] at h
      obtain ⟨-, -, hnone, -⟩ := session_unacked h
      exact absurd hnone hnamed
    | some value =>
      rw [authCheckHandler_bearer hcookie hvalue, handleBearer, Prog.op_bind] at h
      obtain ⟨answer, rest, rfl, h₁⟩ := Prog.ran_call.mp h
      rcases answer with e | _ | entry
      · obtain ⟨-, rfl⟩ := Prog.ran_ret.mp h₁
        exact absurd rfl hnamed
      · obtain ⟨-, rfl⟩ := Prog.ran_ret.mp h₁
        exact absurd rfl hnamed
      · obtain ⟨rfl, rfl⟩ := Prog.ran_ret.mp h₁
        exact ⟨_, entry, by rw [presentedBearer, hvalue]; rfl, rfl,
          resolvedBearerResponse_eq D entry⟩

/-- A check that names an actor has read an envelope that opens to an entry with that actor. -/
theorem check_read {tr : List WireCalls.Event}
    (h : Prog.Ran (serveWire W key S (.check headers)) tr r)
    (hnamed : r.headers = (bearerAnswer W.toDeps (some entry)).headers)
    (hpresented : presentedBearer headers = some token) :
    ∃ sealed, tr = [⟨.get (bearerKey W token), .ok (some sealed)⟩] ∧
      SealedBearer.open W key token sealed = .ok entry := by
  obtain ⟨es, hran, hcarried⟩ := Prog.ran_interpret.mp h
  have hsome : r.headers ≠ [] := by
    rw [hnamed]
    simp [bearerAnswer]
  obtain ⟨token', entry', hpresented', rfl, rfl⟩ := check_named hran hsome
  rw [hpresented] at hpresented'
  cases hpresented'
  have hentry := bearerAnswer_inj hnamed
  subst hentry
  have hcall := Prog.carried_one.mp hcarried
  simp only [carryOut_resolve] at hcall
  obtain ⟨read, rest, rfl, hret⟩ := Prog.ran_call.mp hcall
  obtain ⟨rfl, hread⟩ := Prog.ran_ret.mp hret
  have hresolved : resolveRead W key token read = .ok (some entry') := by
    cases hresult : resolveRead W key token read with
    | error e =>
      rw [hresult] at hread
      cases hread
    | ok found =>
      rw [hresult] at hread
      cases hread
      rfl
  obtain ⟨sealed, rfl, hopened⟩ := resolveRead_some.mp hresolved
  exact ⟨sealed, rfl, hopened⟩

end Reads

section Runs
variable {W : ContractDeps} {S : AppState} {key : BearerSealKey} {w : WireWorld}
  {ls : List WireEvent} {c : WireState} {t : ℕ} {token : String} {entry : BearerEntry}

/-- Who yielded an entry has read an envelope that opens to it. -/
theorem WireRun.read (h : WireRun W S key w ls c) (hyields : Yields W.toDeps ls c t token entry) :
    ∃ sealed, .call t (.get (bearerKey W token)) (.ok (some sealed)) ∈ ls ∧
      SealedBearer.open W key token sealed = .ok entry ∧
      ∃ q, .arrive t q ∈ ls ∧ q.token = some token := by
  rcases hyields with ⟨harrive, hresponse⟩ | ⟨headers, r, harrive, hpresented, hresponse, hnamed⟩
  · have hran := Trace.request_ran h harrive hresponse
    obtain ⟨result, t₁, t₂, hcalls, hresolve, hret⟩ := Prog.ran_bind.mp hran
    obtain ⟨rfl, hresult⟩ := Prog.ran_ret.mp hret
    cases hresult
    obtain ⟨read, rfl, hread⟩ := resolve_ran.mp hresolve
    obtain ⟨sealed, rfl, hopened⟩ := resolveRead_some.mp hread.symm
    refine ⟨sealed, mem_callsOf.mp ?_, hopened, _, harrive, rfl⟩
    rw [hcalls]
    exact .head _
  · have hran := Trace.request_ran h harrive hresponse
    obtain ⟨result, t₁, t₂, hcalls, hserve, hret⟩ := Prog.ran_bind.mp hran
    obtain ⟨rfl, hresult⟩ := Prog.ran_ret.mp hret
    cases hresult
    obtain ⟨sealed, rfl, hopened⟩ := check_read hserve hnamed hpresented
    refine ⟨sealed, mem_callsOf.mp ?_, hopened, _, harrive, hpresented⟩
    rw [hcalls]
    exact .head _

/-- What an honest seal made for some token opens for this one only if the tokens are the
same, and then to what was sealed. -/
theorem HonestSeal.opened {tokens : Set String} {nonce : Nonce} {ciphertext plaintext : Bytes}
    (h : HonestSeal W key ls nonce (tokenAad W token) ciphertext)
    (hinj : Set.InjOn W.bearerTokenKey tokens) (habout : About tokens ls) (htoken : token ∈ tokens)
    (hdecrypt : W.decrypt key nonce (tokenAad W token) ciphertext = some plaintext)
    (hentry : W.entryFromJson plaintext = .ok entry) :
    PutUnder ls token entry nonce ∧ ∃ json, W.entryToJson entry = .ok json ∧
      sealPlaintext W key token nonce json = .ok (envelope nonce ciphertext) := by
  obtain ⟨token', entry', json, hput, haad, hjson, hencrypt⟩ := h
  -- the data are the hash of the token, so a seal for another token would collide
  have hhash : W.bearerTokenKey token' = W.bearerTokenKey token := by
    have htext := congrArg fromUtf8 haad
    rw [tokenAad, tokenAad, fromUtf8_utf8, fromUtf8_utf8] at htext
    exact Option.some.inj htext
  have htoken' : token' ∈ tokens := by
    obtain ⟨u, hu, -⟩ := hput
    exact habout u _ token' hu rfl
  have hsame := hinj htoken' htoken hhash
  subst hsame
  rw [W.decrypt_encrypt hencrypt, Option.some.injEq] at hdecrypt
  subst hdecrypt
  rw [W.entryFromJson_toJson hjson] at hentry
  cases hentry
  exact ⟨hput, json, hjson, sealPlaintext_ok.mpr ⟨ciphertext, hencrypt, rfl⟩⟩

/-- Whatever is written to the bucket: an entry that a request yields for a token was put for
exactly that token before the request read it, and what it read is the envelope of that put. -/
theorem bearers_unforged (W : ContractDeps) (S : AppState) (key : BearerSealKey) (w : WireWorld)
    (ls : List WireEvent) (c : WireState) (h : WireRun W S key w ls c) (ideal : IdealAead W key ls)
    (tokens : Set String) (habout : About tokens ls) (hinj : Set.InjOn W.bearerTokenKey tokens)
    (t : ℕ) (token : String) (entry : BearerEntry)
    (hyields : Yields W.toDeps ls c t token entry) :
    ∃ before sealed after nonce json,
      ls = before ++ .call t (.get (bearerKey W token)) (.ok (some sealed)) :: after ∧
      PutUnder before token entry nonce ∧ W.entryToJson entry = .ok json ∧
      sealPlaintext W key token nonce json = .ok sealed := by
  obtain ⟨sealed, hread, hopened, q, hq, hqtoken⟩ := h.read hyields
  obtain ⟨before, after, d, d', hls, -, -, -⟩ := Trace.at_label h hread
  obtain ⟨q', k, hq', -⟩ := Trace.call_after h hls
  have hsub : before ⊆ ls := fun l hl => hls ▸ List.mem_append_left _ hl
  have hone := (Trace.arrived h).2 t q q' hq (hsub hq')
  subst hone
  -- what opened was decrypted, and what decrypts was sealed before this read
  obtain ⟨plaintext, hplaintext, hentry⟩ := open_ok.mp hopened
  obtain ⟨nonce, ciphertext, rfl, hdecrypt⟩ := openPlaintext_ok.mp hplaintext
  have hseal := ideal before t _ nonce ciphertext after q token plaintext hls hq' hqtoken hdecrypt
  have habout' : About tokens before := fun u q token hu => habout u q token (hsub hu)
  obtain ⟨hput, json, hjson, hsealed⟩ :=
    hseal.opened hinj habout' (habout t q token hq hqtoken) hdecrypt hentry
  exact ⟨before, _, after, nonce, json, hls, hput, hjson, hsealed⟩

end Runs

section Sample
open Sample

/-- The calls of a look-up behind the put of the sample entry. -/
def Sample.lookupCalls : List WireCalls.Event :=
  [⟨.get (bearerKey contract "t"), .ok (some sealed)⟩]

/-- The envelope of the put, copied under every key. -/
def Sample.copied : KvKey → Option Bytes :=
  fun _ => Sample.stored.bearers (bearerKey contract "t")

/-- A put, somebody who copies the envelope about, and a look-up. -/
def Sample.putThenResolved : List WireEvent :=
  (.arrive 0 (.publish (.putBearer "t" entry)) :: callsBy 0 Sample.putCalls) ++
    [.env (.tamper Sample.copied)] ++ (.arrive 1 (.resolve "t") :: callsBy 1 Sample.lookupCalls)

theorem Sample.putThenResolved_requests {ls : List WireEvent} {t : ℕ} {q : WireRequest}
    {token : String} (hls : ls ⊆ Sample.putThenResolved) (hq : .arrive t q ∈ ls)
    (htoken : q.token = some token) : token = "t" := by
  have hmem := hls hq
  simp only [Sample.putThenResolved, callsBy, Sample.putCalls, Sample.lookupCalls, List.map_cons,
    List.map_nil, List.cons_append, List.nil_append, List.mem_cons, List.not_mem_nil, or_false,
    Label.arrive.injEq, reduceCtorEq, false_or] at hmem
  rcases hmem with ⟨-, rfl⟩ | ⟨-, rfl⟩
  · exact (Option.some.inj htoken).symm
  · exact (Option.some.inj htoken).symm

theorem Sample.put_resolved : ∃ c, WireRun contract state sealKey
    ⟨.initial Sample.moment, fun _ => none⟩ Sample.putThenResolved c ∧
    c.response 1 = some (.resolved (.ok (some entry))) := by
  let bare : WireWorld := ⟨.initial Sample.moment, fun _ => none⟩
  have hopens : SealedBearer.open contract sealKey "t" sealed = .ok entry :=
    open_sealed rfl sealed_seal
  have hput : Prog.Ran (startWire contract state sealKey (.publish (.putBearer "t" entry)))
      Sample.putCalls (.published (.ok ())) :=
    Prog.ran_bind.mpr ⟨.ok (), _, [], rfl, Sample.put_ran, .ret _⟩
  have hread : resolveRead contract sealKey "t" (.ok (some sealed)) = .ok (some entry) :=
    resolveRead_some.mpr ⟨sealed, rfl, hopens⟩
  have hlookup : Prog.Ran (startWire contract state sealKey (.resolve "t"))
      Sample.lookupCalls (.resolved (.ok (some entry))) :=
    Prog.ran_bind.mpr ⟨.ok (some entry), _, [], rfl, resolve_ran.mpr ⟨_, rfl, hread.symm⟩, .ret _⟩
  have hputWorld : Trace (wire contract).answers bare Sample.putCalls Sample.stored :=
    Trace.mono (fun _ _ _ _ h => .answered h) Sample.put_stored
  let strewn : WireWorld := { Sample.stored with bearers := Sample.copied }
  have hstored : Sample.stored.fetch contract (bearerKey contract "t") = .ok (some sealed) :=
    fetch_store_same _ _ _
  have hcopied : strewn.bearers (bearerKey contract "t") =
      Sample.stored.bearers (bearerKey contract "t") := by
    simp only [strewn, Sample.copied]
  have hfetch : strewn.fetch contract (bearerKey contract "t") = .ok (some sealed) :=
    (fetch_congr hcopied).trans hstored
  have hget : (wire contract).answers strewn
      ⟨.get (bearerKey contract "t"), .ok (some sealed)⟩ strewn := by
    have hanswer := WireAnswers.answered
      (MapAnswers.get (W := contract) strewn (bearerKey contract "t"))
    rw [hfetch] at hanswer
    exact hanswer
  have hfirst := Trace.request (G := fun _ _ _ => True) (c := .initial bare) (t := 0)
    (fun _ _ _ => trivial) rfl hput hputWorld
  let published : ℕ → Option (WireAction WireResponse) :=
    Function.update (Config.initial bare).threads 0 (some (.ret (.published (.ok ()))))
  have htampered : Trace (GuardedStep (wire contract) (Prog.machine WireCalls WireResponse)
      (startWire contract state sealKey) fun _ _ _ => True) ⟨Sample.stored, published⟩
      [.env (.tamper Sample.copied)] ⟨strewn, published⟩ :=
    .one ⟨.env (.tamper _ _), trivial⟩
  have hsecond := Trace.request (G := fun _ _ _ => True) (c := ⟨strewn, published⟩) (t := 1)
    (fun _ _ _ => trivial) rfl hlookup (Trace.one hget)
  exact ⟨_, (Trace.trans hfirst htampered).trans hsecond, by simp [Config.result, progView]⟩

theorem read_inj {t t' : ℕ} {k k' : KvKey} {sealed sealed' : SealedBearer}
    (h : (.call t (.get k) (.ok (some sealed)) : WireEvent) =
      .call t' (.get k') (.ok (some sealed'))) : sealed = sealed' := by
  cases h
  rfl

theorem Sample.put_ideal : IdealAead contract sealKey Sample.putThenResolved := by
  intro before t k n ciphertext' after q token plaintext hls hq hqtoken _
  have hsub : before ⊆ Sample.putThenResolved := fun l hl => hls ▸ List.mem_append_left _ hl
  have htoken := Sample.putThenResolved_requests hsub hq hqtoken
  subst htoken
  let first : List WireEvent := .arrive 0 (.publish (.putBearer "t" entry)) ::
    (callsBy 0 Sample.putCalls ++ [.env (.tamper Sample.copied), .arrive 1 (.resolve "t")])
  have hlast : Sample.putThenResolved = first ++ callsBy 1 Sample.lookupCalls := rfl
  rw [hlast] at hls
  rcases List.eq_nil_or_concat after with rfl | ⟨init, l, rfl⟩
  · obtain ⟨rfl, hcall⟩ := List.append_inj' hls rfl
    have henvelope := read_inj (List.cons.inj hcall).1
    obtain ⟨rfl, rfl⟩ := envelope_inj henvelope
    exact ⟨"t", entry, _, ⟨0, .head _, .tail _ (.head _)⟩, rfl, rfl, rfl⟩
  · rw [List.concat_eq_append, ← List.cons_append, ← List.append_assoc] at hls
    obtain ⟨hfirst, -⟩ := List.append_inj' hls rfl
    have hmem : .call t (.get k) (.ok (some (envelope n ciphertext'))) ∈ first := by
      rw [hfirst]
      exact List.mem_append_right _ (.head _)
    simp only [first, callsBy, Sample.putCalls, List.map_cons, List.map_nil, List.cons_append,
      List.nil_append, List.mem_cons, List.not_mem_nil, or_false, reduceCtorEq, false_or] at hmem
    rcases hmem with hmem | hmem
    · cases hmem
    · cases hmem

/-- The envelope stands under every key, and the look-up finds what was put. -/
theorem bearers_unforged_sample : ∃ c, WireRun contract state sealKey
      ⟨.initial Sample.moment, fun _ => none⟩ Sample.putThenResolved c ∧
    Yields deps Sample.putThenResolved c 1 "t" entry ∧ ∃ before sealed after nonce json,
      Sample.putThenResolved = before ++
        .call 1 (.get (bearerKey contract "t")) (.ok (some sealed)) :: after ∧
      PutUnder before "t" entry nonce ∧ contract.entryToJson entry = .ok json ∧
      sealPlaintext contract sealKey "t" nonce json = .ok sealed := by
  obtain ⟨c, hrun, hresponse⟩ := Sample.put_resolved
  have hyields : Yields deps Sample.putThenResolved c 1 "t" entry :=
    .inl ⟨List.mem_append_right _ (.head _), hresponse⟩
  refine ⟨c, hrun, hyields, bearers_unforged contract state sealKey _ _ c hrun Sample.put_ideal
    {"t"} ?_ (Set.injOn_singleton _ _) 1 "t" entry hyields⟩
  intro t q token hq htoken
  exact Sample.putThenResolved_requests (List.Subset.refl _) hq htoken

end Sample

end SvcAuth
