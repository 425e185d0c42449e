import SvcAuth.BearerForgery
import SvcAuth.InterleaveObserved

/-! Publishers and gatekeepers at once. Each of their operations takes several calls and may
fail, also after it took effect. All together they behave as if each took effect in one
moment between its arrival and its answer, on one register of entries. -/
namespace SvcAuth
open Interleave

section Register

/-- What the entries of the bucket are asked for, and the calls of the service beside. -/
inductive RegisterOp
  | publish (call : PublisherCall)
  | resolve (token : String)
  | service (o : Op)

def RegisterOp.Reply : RegisterOp → Type
  | .publish _ => Except BearerPublishError Unit
  | .resolve _ => Except BearerValidatorError (Option BearerEntry)
  | .service o => o.Reply

abbrev RegisterCalls : Sig := ⟨RegisterOp, RegisterOp.Reply⟩

abbrev RegisterAction := Prog RegisterCalls

/-- What is read for each token: an entry or none, or that the stored value is none of ours. -/
abbrev Entries := String → Except FabricError (Option BearerEntry)

structure RegisterWorld where
  service : World
  entries : Entries

variable (W : ContractDeps) (key : BearerSealKey) (S : AppState)

/-- The entries in a bucket. -/
def WireWorld.entries (w : WireWorld) : Entries := fun token =>
  (w.fetch W (bearerKey W token)).map fun found =>
    found.bind fun sealed => (SealedBearer.open W key token sealed).toOption

def WireWorld.register (w : WireWorld) : RegisterWorld := ⟨w.service, w.entries W key⟩

/-- The call took effect. What it leaves for tokens with the same hash is not said. -/
def Took (call : PublisherCall) (entries entries' : Entries) : Prop :=
  entries' call.token = .ok call.entry ∧
    ∀ token, W.bearerTokenKey token ≠ W.bearerTokenKey call.token → entries' token = entries token

inductive RegisterAnswers : RegisterWorld → (o : RegisterOp) → o.Reply → RegisterWorld → Prop
  | done {w : RegisterWorld} {call : PublisherCall} {entries : Entries}
      (took : Took W call w.entries entries) :
      RegisterAnswers w (.publish call) (.ok ()) { w with entries := entries }
  | failed (w : RegisterWorld) (call : PublisherCall) (e : BearerPublishError) :
      RegisterAnswers w (.publish call) (.error e) w
  | unacknowledged {w : RegisterWorld} {call : PublisherCall} {entries : Entries}
      (took : Took W call w.entries entries) (e : BearerPublishError) :
      RegisterAnswers w (.publish call) (.error e) { w with entries := entries }
  | resolved (w : RegisterWorld) (token : String) :
      RegisterAnswers w (.resolve token) ((w.entries token).mapError .Read) w
  | unavailable (w : RegisterWorld) (token : String) :
      RegisterAnswers w (.resolve token) (.error (.Read .Unavailable)) w
  | service {w : RegisterWorld} {o : Op} {r : o.Reply} {s : World}
      (answer : Answers w.service o r s) :
      RegisterAnswers w (.service o) r { w with service := s }

inductive RegisterDisturbs : RegisterWorld → Disturbance → RegisterWorld → Prop
  | passage {w : RegisterWorld} {e : Passage} {s : World} (h : Passes w.service e s) :
      RegisterDisturbs w (.passage e) { w with service := s }
  | tamper (w : RegisterWorld) (bearers : KvKey → Option Bytes) (entries : Entries) :
      RegisterDisturbs w (.tamper bearers) { w with entries := entries }

def register : System RegisterCalls RegisterWorld Disturbance :=
  ⟨RegisterAnswers W, RegisterDisturbs⟩

/-- A call of the service, with a bearer resolved in one step. -/
def askRegister : (o : Op) → RegisterAction o.Reply
  | .resolve token => do
    return (← Prog.op (S := RegisterCalls) (.resolve token)).mapError
      (BearerValidatorError.toString W)
  | o => Prog.op (S := RegisterCalls) (.service o)

/-- Every request to the publishers and the validator is one call to the register. -/
def startRegister : WireRequest → RegisterAction WireResponse
  | .publish call => do return .published (← Prog.op (S := RegisterCalls) (.publish call))
  | .resolve token => do return .resolved (← Prog.op (S := RegisterCalls) (.resolve token))
  | .service q => do return .served (← (serve W.toDeps S q).interpret (askRegister W))

/-- What the publishers and the validator do for it. -/
def carryRegister : (o : RegisterOp) → WireAction o.Reply
  | .publish call => call.run W key
  | .resolve token => SvcAuth.resolve W key token
  | .service o => Prog.op (S := WireCalls) (.service o)

abbrev RegisterEvent := Label RegisterCalls WireRequest Disturbance

abbrev RegisterState := Config (RegisterAction WireResponse) RegisterWorld

abbrev RegisterState.response (c : RegisterState) (t : ℕ) : Option WireResponse :=
  c.result (Prog.machine RegisterCalls WireResponse) t

/-- What is assumed of a run on the register. -/
abbrev RegisterGuard := Guard RegisterCalls WireResponse RegisterWorld Disturbance WireRequest

abbrev RegisterSegment (G : RegisterGuard) : RegisterState → List RegisterEvent →
    RegisterState → Prop :=
  Trace (GuardedStep (register W) (Prog.machine RegisterCalls WireResponse) (startRegister W S) G)

abbrev RegisterRun (G : RegisterGuard) (w : RegisterWorld) :
    List RegisterEvent → RegisterState → Prop := RegisterSegment W S G (.initial w)

/-- A run of publishers and service, in which this was noted of the answers. -/
abbrev NotedRun (noted : ℕ → ℕ → Option WireResponse) (w : WireWorld) :
    List WireEvent → WireState → Prop :=
  Trace (GuardedStep (wire W) (Prog.machine WireCalls WireResponse) (startWire W S key)
    (Observed noted)) (.initial w)

end Register

section Programs
variable {W : ContractDeps} {key : BearerSealKey} {token : String} {entry : BearerEntry}

theorem putBearer_eq (W : ContractDeps) (key : BearerSealKey) (token : String)
    (entry : BearerEntry) : putBearer W key token entry =
      match W.entryToJson entry with
      | .error e => .ret (.error (.Seal (AuthContractError.Serialize e).toString))
      | .ok json => .call .generateNonce fun nonce =>
        match sealPlaintext W key token nonce json with
        | .error e => .ret (.error (.Seal e.toString))
        | .ok sealed => .call (.put (bearerKey W token) sealed) fun answer =>
          .ret (answer.mapError fun e => .Put (W.fabricErrorToString e)) := by
  rw [putBearer, SealedBearer.seal]
  cases W.entryToJson entry with
  | error e => rfl
  | ok json =>
    simp only [bearerKvKey_ok]
    refine congrArg (Prog.call (S := WireCalls) .generateNonce) (funext fun nonce => ?_)
    show (match sealPlaintext W key token nonce json with | .error e => _ | .ok sealed => _) = _
    cases sealPlaintext W key token nonce json with
    | error e => rfl
    | ok sealed =>
      refine congrArg (Prog.call (S := WireCalls) (.put (bearerKey W token) sealed))
        (funext fun answer => ?_)
      cases answer <;> rfl

theorem deleteBearer_eq (W : ContractDeps) (token : String) : deleteBearer W token =
    .call (.retract (bearerKey W token)) fun answer =>
      .ret (answer.mapError fun e => .Delete (W.fabricErrorToString e)) := by
  rw [deleteBearer, bearerKvKey_ok]
  refine congrArg (Prog.call (S := WireCalls) (.retract (bearerKey W token)))
    (funext fun answer => ?_)
  cases answer <;> rfl

theorem carryOut_register (W : ContractDeps) (key : BearerSealKey) (o : Op) :
    carryOut W key o = (askRegister W o).interpret (carryRegister W key) := by
  cases o <;> rfl

theorem startWire_register (W : ContractDeps) (S : AppState) (key : BearerSealKey) :
    startWire W S key = fun q => (startRegister W S q).interpret (carryRegister W key) := by
  funext q
  cases q with
  | publish call => rfl
  | resolve token => rfl
  | service q =>
    simp only [startWire, startRegister, serveWire, Prog.interpret_bind, Prog.interpret_interpret,
      ← carryOut_register]
    rfl

end Programs

section Refinement
variable {W : ContractDeps} {key : BearerSealKey} {S : AppState} {w w' : WireWorld}
  {token : String} {entry : BearerEntry} {call : PublisherCall}

theorem resolveRead_entries (w : WireWorld) (token : String) :
    resolveRead W key token (w.fetch W (bearerKey W token)) =
      (w.entries W key token).mapError .Read := by
  rw [WireWorld.entries]
  rcases w.fetch W (bearerKey W token) with e | _ | sealed <;> rfl

theorem store_took (call : PublisherCall) {bytes : Option Bytes}
    (hown : (w.store (bearerKey W call.token) bytes).entries W key call.token = .ok call.entry) :
    Took W call (w.entries W key) ((w.store (bearerKey W call.token) bytes).entries W key) := by
  refine ⟨hown, fun token hother => ?_⟩
  have hkey : bearerKey W token ≠ bearerKey W call.token := fun h => hother (bearerKey_inj h)
  rw [WireWorld.entries, WireWorld.entries, fetch_store_other hkey]

theorem put_took {json : Bytes} {nonce : Nonce} {sealed : SealedBearer}
    (hjson : W.entryToJson entry = .ok json)
    (hsealed : sealPlaintext W key token nonce json = .ok sealed) (w : WireWorld) :
    Took W (.putBearer token entry) (w.entries W key)
      ((w.store (bearerKey W token) (some (sealed.store W))).entries W key) := by
  refine store_took (.putBearer token entry) ?_
  simp only [WireWorld.entries, PublisherCall.token, fetch_store_same, Except.map,
    Option.bind_some, open_sealed hjson hsealed]
  rfl

theorem delete_took (key : BearerSealKey) (w : WireWorld) (token : String) :
    Took W (.deleteBearer token) (w.entries W key)
      ((w.store (bearerKey W token) none).entries W key) := by
  refine store_took (.deleteBearer token) ?_
  simp only [WireWorld.entries, PublisherCall.token, fetch_removed]
  rfl

/-- A publisher's call takes effect at its last call to the bucket, or not at all. -/
theorem publish_carried {tr : List WireCalls.Event} {o : WireOp}
    {k : o.Reply → WireAction (Except BearerPublishError Unit)} {r : o.Reply}
    (hafter : Prog.After (call.run W key) tr (.call o k)) (answer : WireAnswers W w o r w') :
    (∃ a, k r = .ret a ∧
      RegisterAnswers W (w.register W key) (.publish call) a (w'.register W key)) ∨
      (∃ o' k', k r = .call o' k') ∧ w'.register W key = w.register W key := by
  cases call with
  | putBearer token entry =>
    rw [PublisherCall.run, putBearer_eq] at hafter
    cases hjson : W.entryToJson entry with
    | error e =>
      rw [hjson] at hafter
      exact hafter.not_ret.elim
    | ok json =>
      rw [hjson] at hafter
      rcases Prog.after_call.mp hafter with ⟨-, heq⟩ | ⟨nonce, rest, -, hnext⟩
      · cases heq
        have hsame : w' = w := by
          cases answer with
          | answered answer =>
            cases answer with
            | generateNonce => rfl
        subst hsame
        cases hsealed : sealPlaintext W key token r json with
        | error e =>
          simp only [hsealed]
          exact .inl ⟨_, rfl, .failed _ _ _⟩
        | ok sealed =>
          simp only [hsealed]
          exact .inr ⟨⟨_, _, rfl⟩, trivial⟩
      · cases hsealed : sealPlaintext W key token nonce json with
        | error e =>
          simp only [hsealed] at hnext
          exact hnext.not_ret.elim
        | ok sealed =>
          simp only [hsealed] at hnext
          rcases Prog.after_call.mp hnext with ⟨-, heq⟩ | ⟨_, _, -, hdone⟩
          · cases heq
            refine .inl ⟨_, rfl, ?_⟩
            have htook := put_took hjson hsealed w
            cases answer with
            | answered answer =>
              cases answer with
              | put => exact .done htook
            | putLost => exact .failed _ _ _
            | putUnacknowledged => exact .unacknowledged htook _
          · exact hdone.not_ret.elim
  | deleteBearer token =>
    rw [PublisherCall.run, deleteBearer_eq] at hafter
    rcases Prog.after_call.mp hafter with ⟨-, heq⟩ | ⟨_, _, -, hdone⟩
    · cases heq
      refine .inl ⟨_, rfl, ?_⟩
      have htook : Took W _ _ _ := delete_took key w token
      cases answer with
      | answered answer =>
        cases answer with
        | retract => exact .done htook
      | retractLost => exact .failed _ _ _
      | retractUnacknowledged => exact .unacknowledged htook _
    · exact hdone.not_ret.elim

theorem register_carries : CarriesOut (register W) (wire W) (carryRegister W key)
    (fun w => w.register W key) some where
  at_once := by
    intro o r w h
    cases o with
    | publish call =>
      cases call with
      | putBearer token entry =>
        have hput : putBearer W key token entry = .ret r := h
        rw [putBearer_eq] at hput
        cases hjson : W.entryToJson entry with
        | error e =>
          rw [hjson] at hput
          cases hput
          exact .failed _ _ _
        | ok json =>
          rw [hjson] at hput
          cases hput
      | deleteBearer token =>
        have hdelete : deleteBearer W token = .ret r := h
        rw [deleteBearer_eq] at hdelete
        cases hdelete
    | resolve token =>
      have hresolve : resolve W key token = .ret r := h
      rw [resolve_eq] at hresolve
      cases hresolve
    | service o => cases h
  call := by
    intro o tr o' k r' w w' hafter answer
    cases o with
    | publish call => exact publish_carried hafter answer
    | resolve token =>
      have hresolve : Prog.After (resolve W key token) tr (.call o' k) := hafter
      rw [resolve_eq] at hresolve
      rcases Prog.after_call.mp hresolve with ⟨-, heq⟩ | ⟨_, _, -, hdone⟩
      · cases heq
        refine .inl ⟨_, rfl, ?_⟩
        cases answer with
        | answered answer =>
          cases answer with
          | get =>
            rw [resolveRead_entries]
            exact .resolved _ _
        | getFailed => exact .unavailable _ _
      · exact hdone.not_ret.elim
    | service o =>
      rcases Prog.after_call.mp hafter with ⟨-, heq⟩ | ⟨_, _, -, hdone⟩
      · cases heq
        refine .inl ⟨_, rfl, ?_⟩
        cases answer with
        | answered answer =>
          cases answer with
          | service answer => exact .service answer
      · exact hdone.not_ret.elim
  env := by
    intro w w' f h
    cases h with
    | passage h => exact .inl ⟨_, rfl, .passage h⟩
    | tamper bearers => exact .inl ⟨_, rfl, .tamper _ _ _⟩

/-- Both ends of the bucket, run on the register. -/
theorem NotedRun.register {noted : ℕ → ℕ → Option WireResponse} {ls : List WireEvent}
    {c : WireState} (h : NotedRun W key S noted w ls c) :
    ∃ ms d, RegisterRun W S (Observed noted) (w.register W key) ms d ∧
      Above (carryRegister W key) (fun w => w.register W key) some ms d ls c := by
  rw [NotedRun, startWire_register] at h
  exact Trace.above register_carries (observed_above noted) h

/-- However publishers, validators and requests to the service interleave, whatever fails,
also after it took effect, and whatever others write into the bucket: some run on the
register has the same requests and disturbances in the same order and the same answers, each
operation there takes effect in one call, whenever a request arrives the same requests have
been answered, and the bucket is left with the entries of the register. -/
theorem bearers_linearizable (W : ContractDeps) (S : AppState) (key : BearerSealKey)
    (w : WireWorld) (ls : List WireEvent) (c : WireState) (h : WireRun W S key w ls c) :
    ∃ noted, NotedRun W key S noted w ls c ∧
      ∃ ms d, RegisterRun W S (Observed noted) (w.register W key) ms d ∧ outside ms = outside ls ∧
        (∀ t, d.response t = c.response t) ∧ d.world = c.world.register W key := by
  obtain ⟨noted, hnoted⟩ := Trace.observed h
  obtain ⟨ms, d, hrun, habove⟩ := NotedRun.register hnoted
  refine ⟨noted, hnoted, ms, d, hrun, ?_, congrFun habove.result, habove.world⟩
  rw [habove.visible, filterMap_shown_some]

/-- The put and the look-up of the sample, on the register. -/
theorem bearers_linearizable_sample : ∃ noted ms d,
    RegisterRun Sample.contract Sample.state (Observed noted)
      (WireWorld.register Sample.contract Sample.sealKey ⟨.initial Sample.moment, fun _ => none⟩) ms d ∧
    outside ms = outside Sample.putThenResolved ∧
    d.response 1 = some (.resolved (.ok (some Sample.entry))) := by
  obtain ⟨c, hrun, hresponse⟩ := Sample.put_resolved
  obtain ⟨noted, -, ms, d, hregister, houtside, hresponses, -⟩ :=
    bearers_linearizable Sample.contract Sample.state Sample.sealKey _ _ c hrun
  exact ⟨noted, ms, d, hregister, houtside, (hresponses 1).trans hresponse⟩

end Refinement

section Requests
variable {W : ContractDeps} {S : AppState} {G : RegisterGuard} {w : RegisterWorld}
  {ms : List RegisterEvent} {d : RegisterState} {t : ℕ}
  {call : PublisherCall} {token : String} {tr : List RegisterCalls.Event}

theorem askRegister_calls {o : Op} {o' : RegisterOp} {k : o'.Reply → RegisterAction o.Reply}
    (h : Prog.After (askRegister W o) tr (.call o' k)) : ∀ call, o' ≠ .publish call := by
  rintro call rfl
  cases o <;>
    · rcases Prog.after_call.mp h with ⟨-, heq⟩ | ⟨_, _, -, hdone⟩
      · cases heq
      · exact hdone.not_ret.elim

/-- A publisher's request makes its own call, once; no other request makes such a call. -/
theorem startRegister_publish {q : WireRequest}
    {k : Except BearerPublishError Unit → RegisterAction WireResponse}
    (h : Prog.After (startRegister W S q) tr (.call (.publish call) k)) :
    q = .publish call ∧ tr = [] := by
  cases q with
  | publish call' =>
    rcases Prog.after_call.mp h with ⟨rfl, heq⟩ | ⟨_, _, -, hdone⟩
    · cases heq
      exact ⟨rfl, rfl⟩
    · exact hdone.not_ret.elim
  | resolve token =>
    rcases Prog.after_call.mp h with ⟨-, heq⟩ | ⟨_, _, -, hdone⟩
    · cases heq
    · exact hdone.not_ret.elim
  | service q =>
    rcases Prog.after_bind h with ⟨k', hinside⟩ | ⟨r, t₁, t₂, -, -, hdone⟩
    · obtain ⟨es, o, k₁, t₁, t₂, k₀, -, -, -, hask⟩ := Prog.after_interpret hinside
      exact absurd rfl (askRegister_calls hask call)
    · exact hdone.not_ret.elim

/-- A call of a publisher comes first among the calls of its request. -/
theorem RegisterRun.publish_first (h : RegisterRun W S G w ms d)
    {before after : List RegisterEvent} {r : Except BearerPublishError Unit}
    (hms : ms = before ++ .call t (.publish call) r :: after) :
    .arrive t (.publish call) ∈ before ∧ callsOf t before = [] := by
  obtain ⟨q, k, hq, hafter⟩ := Trace.call_after h hms
  obtain ⟨rfl, hnone⟩ := startRegister_publish hafter
  exact ⟨hq, hnone⟩

theorem RegisterRun.published (h : RegisterRun W S G w ms d)
    (hq : .arrive t (.publish call) ∈ ms) {a : WireResponse} (ha : d.response t = some a) :
    ∃ r, a = .published r ∧ callsOf t ms = [⟨.publish call, r⟩] := by
  have hran := Trace.request_ran h hq ha
  obtain ⟨r, rest, hcalls, hdone⟩ := Prog.ran_call.mp hran
  obtain ⟨rfl, rfl⟩ := Prog.ran_ret.mp hdone
  exact ⟨r, rfl, hcalls⟩

theorem RegisterRun.resolved (h : RegisterRun W S G w ms d)
    (hq : .arrive t (.resolve token) ∈ ms) {r : Except BearerValidatorError (Option BearerEntry)}
    (hr : d.response t = some (.resolved r)) : .call t (.resolve token) r ∈ ms := by
  have hran := Trace.request_ran h hq hr
  obtain ⟨r', rest, hcalls, hdone⟩ := Prog.ran_call.mp hran
  obtain ⟨rfl, hsame⟩ := Prog.ran_ret.mp hdone
  cases hsame
  refine mem_callsOf.mp ?_
  rw [hcalls]
  exact .head _

theorem RegisterRun.checked {headers : HeaderMap} (h : RegisterRun W S G w ms d)
    (hq : .arrive t (.service (.check headers)) ∈ ms)
    (hpresented : presentedBearer headers = some token) {r : Response}
    (hr : d.response t = some (.served r)) (hnamed : r.headers ≠ []) :
    ∃ entry, .call t (.resolve token) (.ok (some entry)) ∈ ms ∧
      r = bearerAnswer W.toDeps (some entry) := by
  have hran := Trace.request_ran h hq hr
  obtain ⟨a, t₁, t₂, hcalls, hserve, hdone⟩ := Prog.ran_bind.mp hran
  obtain ⟨rfl, hsame⟩ := Prog.ran_ret.mp hdone
  cases hsame
  obtain ⟨es, hcheck, hcarried⟩ := Prog.ran_interpret.mp hserve
  obtain ⟨token', entry, hpresented', rfl, rfl⟩ := check_named hcheck hnamed
  rw [hpresented] at hpresented'
  cases hpresented'
  obtain ⟨r, rest, rfl, hask⟩ := Prog.ran_call.mp (Prog.carried_one.mp hcarried)
  obtain ⟨rfl, hok⟩ := Prog.ran_ret.mp hask
  refine ⟨entry, mem_callsOf.mp ?_, rfl⟩
  rw [hcalls, List.append_nil]
  cases r with
  | error e => cases hok
  | ok found =>
    cases hok
    exact .head _

end Requests

section Acknowledged
variable {W : ContractDeps} {S : AppState} {key : BearerSealKey} {G : RegisterGuard}
  {w : RegisterWorld} {ms ns : List RegisterEvent} {d d' : RegisterState} {t u : ℕ}
  {call : PublisherCall}

/-- The call writes where this token is looked up. -/
def PublisherCall.Touches (W : ContractDeps) (call : PublisherCall) (token : String) : Prop :=
  W.bearerTokenKey call.token = W.bearerTokenKey token

/-- An entry stays while no call touches it and nobody else writes. -/
theorem RegisterSegment.entry_stays {token : String} (h : RegisterSegment W S G d ns d')
    (hcalls : ∀ v call r, .call v (.publish call) r ∈ ns → ¬ call.Touches W token)
    (htampers : ∀ bearers, .env (.tamper bearers) ∉ ns) :
    d'.world.entries token = d.world.entries token := by
  induction h with
  | nil => rfl
  | @snoc d e ns l prior last ih =>
    rw [← ih (fun v call r hl => hcalls v call r (List.mem_append_left _ hl))
      fun bearers hl => htampers bearers (List.mem_append_left _ hl)]
    rcases last.1.inv with ⟨v, q, rfl, -, hw, -⟩ | ⟨v, p, o, k, r, rfl, -, -, answer, -⟩ |
      ⟨f, rfl, hf, -⟩
    · rw [hw]
    · have htouches : ∀ call, o = .publish call → ¬ call.Touches W token := by
        rintro call rfl
        exact hcalls v call r List.mem_concat_self
      generalize e.world = w' at answer ⊢
      cases answer with
      | done took => exact took.2 token fun h => htouches _ rfl h.symm
      | unacknowledged took e => exact took.2 token fun h => htouches _ rfl h.symm
      | _ => rfl
    · generalize e.world = w' at hf ⊢
      cases hf with
      | passage => rfl
      | tamper bearers => exact absurd List.mem_concat_self (htampers bearers)

/-- What a look-up answers, by the entry. -/
theorem RegisterAnswers.read {token : String} {w' : RegisterWorld}
    {r : Except BearerValidatorError (Option BearerEntry)}
    (h : RegisterAnswers W w (.resolve token) r w') :
    r = (w.entries token).mapError .Read ∨ r = .error (.Read .Unavailable) := by
  cases h with
  | resolved => exact .inl rfl
  | unavailable => exact .inr rfl

section Parts
variable {ms₁ ms₂ ms₃ : List RegisterEvent} {d₁ d₂ d₃ : RegisterState}

theorem published_before (call : PublisherCall) (h₁ : RegisterRun W S G w ms₁ d₁)
    (h₂ : RegisterSegment W S G d₁ ms₂ d₂) {v : ℕ} {a : WireResponse} (ha : d₁.response v = some a)
    {r : Except BearerPublishError Unit} : .call v (.publish call) r ∉ ms₂ := by
  intro hl
  obtain ⟨x, y, rfl⟩ := List.append_of_mem hl
  have hrun : RegisterRun W S G w (ms₁ ++ (x ++ .call v (.publish call) r :: y)) d₂ := h₁.trans h₂
  obtain ⟨hq, hnone⟩ := RegisterRun.publish_first hrun (List.append_assoc _ _ _).symm
  obtain ⟨q, hq₁, -⟩ := Trace.result_ran h₁ ha
  have hsame := (Trace.arrived hrun).2 v q (.publish call) (List.mem_append_left _ hq₁) (by
    rw [← List.append_assoc]
    exact List.mem_append_left _ hq)
  subst hsame
  obtain ⟨r', -, hcalls⟩ := RegisterRun.published h₁ hq₁ ha
  rw [callsOf_append, hcalls] at hnone
  cases hnone

/-- Between an acknowledged call and a look-up that came after it, no other call touches the
entry: all others were answered before, or do not come. -/
theorem last_call_read (h₁ : RegisterRun W S G w ms₁ d₁) (h₂ : RegisterSegment W S G d₁ ms₂ d₂)
    (h₃ : RegisterSegment W S G d₂ ms₃ d₃) (hu : d₁.threads u = none) (ht : d₂.threads t = none)
    (hcall : .arrive u (.publish call) ∈ ms₂)
    (hacked : d₂.response u = some (.published (.ok ())))
    (hothers : ∀ v call', v ≠ u → .arrive v (.publish call') ∈ ms₁ ++ (ms₂ ++ ms₃) →
      call'.Touches W call.token → ∃ a, d₁.response v = some a)
    (huntampered : ∀ bearers, .env (.tamper bearers) ∉ ms₂ ++ ms₃)
    {r : Except BearerValidatorError (Option BearerEntry)}
    (hread : .call t (.resolve call.token) r ∈ ms₁ ++ (ms₂ ++ ms₃)) :
    r = .ok call.entry ∨ r = .error (.Read .Unavailable) := by
  have h₁₂ : RegisterRun W S G w (ms₁ ++ ms₂) d₂ := h₁.trans h₂
  have hrun : RegisterRun W S G w (ms₁ ++ (ms₂ ++ ms₃)) d₃ := h₁.trans (h₂.trans h₃)
  -- the acknowledged call is in the middle part, the look-up in the last
  have hcall₂ : .call u (.publish call) (.ok ()) ∈ ms₂ := by
    obtain ⟨r', hr', hcalls⟩ := RegisterRun.published h₁₂ (List.mem_append_right _ hcall) hacked
    cases hr'
    rw [callsOf_append, (Trace.executions h₁ u).1 hu, List.nil_append] at hcalls
    refine mem_callsOf.mp ?_
    rw [hcalls]
    exact .head _
  have hread₃ : .call t (.resolve call.token) r ∈ ms₃ := by
    rw [← List.append_assoc] at hread
    rcases List.mem_append.mp hread with hearly | hlate
    · have hmem := mem_callsOf.mpr hearly
      rw [(Trace.executions h₁₂ t).1 ht] at hmem
      cases hmem
    · exact hlate
  obtain ⟨x, y, rfl⟩ := List.append_of_mem hcall₂
  obtain ⟨z, z', rfl⟩ := List.append_of_mem hread₃
  obtain ⟨e₁, -, hrest⟩ := Trace.append_iff.mp h₂
  obtain ⟨e₂, hpublished, hy⟩ := Trace.cons_iff.mp hrest
  obtain ⟨e₃, hz, hrest'⟩ := Trace.append_iff.mp h₃
  obtain ⟨e₄, hlookup, -⟩ := Trace.cons_iff.mp hrest'
  -- what the call left stays until the look-up
  have hentry : e₂.world.entries call.token = .ok call.entry := by
    have hanswer := hpublished.1.executed
    generalize e₂.world = w' at hanswer ⊢
    cases hanswer with
    | done took => exact took.1
  have hstays : e₃.world.entries call.token = e₂.world.entries call.token := by
    refine RegisterSegment.entry_stays (hy.trans hz) ?_ ?_
    · intro v call' r' hl htouches
      obtain ⟨p, q, hpq⟩ := List.append_of_mem hl
      have hms : ms₁ ++ (x ++ .call u (.publish call) (.ok ()) :: y ++
          (z ++ .call t (.resolve call.token) r :: z')) =
          (ms₁ ++ x ++ .call u (.publish call) (.ok ()) :: p) ++ .call v (.publish call') r' ::
            (q ++ .call t (.resolve call.token) r :: z') := by
        have hjoin := congrArg (· ++ .call t (.resolve call.token) r :: z') hpq
        simp only [List.append_assoc, List.cons_append] at hjoin ⊢
        rw [hjoin]
      obtain ⟨hq', hnone⟩ := RegisterRun.publish_first hrun hms
      by_cases hvu : v = u
      · subst hvu
        have hmem : .call v (.publish call) (.ok ()) ∈
            ms₁ ++ x ++ .call v (.publish call) (.ok ()) :: p := by simp
        have hin := mem_callsOf.mpr hmem
        rw [hnone] at hin
        cases hin
      · obtain ⟨a, ha⟩ := hothers v call' hvu (by
          rw [hms]
          exact List.mem_append_left _ hq') htouches
        refine published_before call' h₁ (h₂.trans h₃) ha (r := r') ?_
        have hyz : .call v (.publish call') r' ∈ y ++ z := hl
        simp only [List.mem_append, List.mem_cons] at hyz ⊢
        tauto
    · intro bearers hl
      refine huntampered bearers ?_
      simp only [List.mem_append, List.mem_cons] at hl ⊢
      tauto
  have hanswer := RegisterAnswers.read hlookup.1.executed
  rwa [hstays, hentry] at hanswer

end Parts

/-- A part of a run of publishers and service. -/
abbrev WireSegment (W : ContractDeps) (S : AppState) (key : BearerSealKey) :
    WireState → List WireEvent → WireState → Prop :=
  Trace (GuardedStep (wire W) (Prog.machine WireCalls WireResponse) (startWire W S key)
    fun _ _ _ => True)

/-- The same in parts, below and on the register. -/
theorem WireSegment.register {c c' : WireState} {ls ls' : List WireEvent}
    (habove : Above (carryRegister W key) (fun w => w.register W key) some ms d ls c)
    (h : WireSegment W S key c ls' c') :
    ∃ ns d', RegisterSegment W S (fun _ _ _ => True) d ns d' ∧ outside ns = outside ls' ∧
      Above (carryRegister W key) (fun w => w.register W key) some (ms ++ ns) d' (ls ++ ls') c' := by
  have hallowed : GuardAbove (carryRegister W key) (fun _ _ _ => True : RegisterGuard)
      (fun _ _ _ => True : Guard WireCalls WireResponse WireWorld Disturbance WireRequest)
      (fun w => w.register W key) some :=
    ⟨fun _ => trivial, fun _ => trivial, fun _ _ _ => trivial, fun _ _ => trivial⟩
  rw [WireSegment, startWire_register] at h
  obtain ⟨ns, d', hns, habove'⟩ := habove.run register_carries hallowed h
  refine ⟨ns, d', hns, ?_, habove'⟩
  have hvisible := habove'.visible
  rw [filterMap_shown_some, outside_append, outside_append, habove.visible,
    filterMap_shown_some] at hvisible
  exact List.append_cancel_left hvisible

/-- An acknowledged call of a publisher stands. If no other call that touches its token is
under way when it arrives or comes after it, and nobody else writes into the bucket, then
whatever fails, a look-up that comes after the acknowledgement finds what the call left or
fails, and a check of the token that names an actor names that of the entry: after a bearer
was retracted no check accepts it. -/
theorem acknowledged_call_stands (W : ContractDeps) (S : AppState) (key : BearerSealKey)
    (w : WireWorld) (ls₁ ls₂ ls₃ : List WireEvent) (c₁ c₂ c₃ : WireState) (u t : ℕ)
    (call : PublisherCall) (q : WireRequest)
    (h₁ : WireRun W S key w ls₁ c₁)
    (h₂ : WireSegment W S key c₁ (.arrive u (.publish call) :: ls₂) c₂)
    (h₃ : WireSegment W S key c₂ (.arrive t q :: ls₃) c₃)
    (hacked : c₂.response u = some (.published (.ok ())))
    (hsettled : ∀ v call', .arrive v (.publish call') ∈ ls₁ → call'.Touches W call.token →
      ∃ a, c₁.response v = some a)
    (halone : ∀ v call', .arrive v (.publish call') ∈ ls₂ ++ ls₃ → ¬ call'.Touches W call.token)
    (huntampered : ∀ bearers, .env (.tamper bearers) ∉ ls₂ ++ ls₃) :
    (q = .resolve call.token → ∀ r, c₃.response t = some (.resolved r) →
      r = .ok call.entry ∨ r = .error (.Read .Unavailable)) ∧
    (∀ headers, q = .service (.check headers) → presentedBearer headers = some call.token →
      ∀ r, c₃.response t = some (.served r) → r.headers ≠ [] →
        ∃ entry, call.entry = some entry ∧ r = bearerAnswer W.toDeps (some entry)) := by
  have hnone : Above (carryRegister W key) (fun w => w.register W key) some
      ([] : List RegisterEvent) (⟨w.register W key, fun _ => none⟩ : RegisterState) []
      (.initial w : WireState) := ⟨rfl, rfl, fun _ => .none⟩
  obtain ⟨ms₁, d₁, hms₁, -, habove₁⟩ := WireSegment.register hnone h₁
  obtain ⟨ms₂, d₂, hms₂, houtside₂, habove₂⟩ := WireSegment.register habove₁ h₂
  obtain ⟨ms₃, d₃, hms₃, houtside₃, habove₃⟩ := WireSegment.register habove₂ h₃
  have hall : RegisterRun W S (fun _ _ _ => True) (w.register W key) (ms₁ ++ (ms₂ ++ ms₃)) d₃ :=
    hms₁.trans (hms₂.trans hms₃)
  have hidle : ∀ {c c' : WireState} {v : ℕ} {q : WireRequest} {ls : List WireEvent},
      WireSegment W S key c (.arrive v q :: ls) c' → c.threads v = none := by
    intro c c' v q ls h
    obtain ⟨e, hs, -⟩ := Trace.cons_iff.mp h
    rcases hs.1.inv with ⟨v', q', hl, idle, -⟩ | ⟨v', p, o, k, r, hl, -⟩ | ⟨f, hl, -⟩
    · cases hl
      exact idle
    · cases hl
    · cases hl
  have hu : d₁.threads u = none := habove₁.idle (hidle h₂)
  have ht : d₂.threads t = none := habove₂.idle (hidle h₃)
  have harrived : ∀ {v q'}, .arrive v q' ∈ ms₁ ++ (ms₂ ++ ms₃) ↔
      .arrive v q' ∈ ls₁ ++ ((.arrive u (.publish call) :: ls₂) ++ (.arrive t q :: ls₃)) := by
    intro v q'
    have harrived := habove₃.arrived (t := v) (q := q')
    simpa only [List.nil_append, List.append_assoc] using harrived
  have hcall : .arrive u (.publish call) ∈ ms₂ := by
    rw [← mem_outside, houtside₂, mem_outside]
    exact .head _
  have hacked' : d₂.response u = some (.published (.ok ())) :=
    (congrFun habove₂.result u).trans hacked
  have hread : ∀ r, .call t (.resolve call.token) r ∈ ms₁ ++ (ms₂ ++ ms₃) →
      (∀ call', q ≠ .publish call') → r = .ok call.entry ∨ r = .error (.Read .Unavailable) := by
    intro r hr hq
    refine last_call_read hms₁ hms₂ hms₃ hu ht hcall hacked' ?_ ?_ hr
    · intro v call' hvu hv htouches
      rw [harrived] at hv
      simp only [List.mem_append, List.mem_cons, Label.arrive.injEq] at hv
      rcases hv with hv | (⟨rfl, -⟩ | hv) | ⟨-, rfl⟩ | hv
      · obtain ⟨a, ha⟩ := hsettled v call' hv htouches
        exact ⟨a, (congrFun habove₁.result v).trans ha⟩
      · exact absurd rfl hvu
      · exact absurd htouches (halone v call' (List.mem_append_left _ hv))
      · exact absurd rfl (hq call')
      · exact absurd htouches (halone v call' (List.mem_append_right _ hv))
    · intro bearers hl
      refine huntampered bearers ?_
      rw [← mem_outside_env, outside_append, houtside₂, houtside₃, ← outside_append,
        mem_outside_env] at hl
      simpa using hl
  have hq : .arrive t q ∈ ms₁ ++ (ms₂ ++ ms₃) := by
    rw [harrived]
    simp
  constructor
  · rintro rfl r hr
    exact hread r (RegisterRun.resolved hall hq ((congrFun habove₃.result t).trans hr)) (by simp)
  · rintro headers rfl hpresented r hr hnamed
    obtain ⟨entry, hcalled, rfl⟩ :=
      RegisterRun.checked hall hq hpresented ((congrFun habove₃.result t).trans hr) hnamed
    rcases hread _ hcalled (by simp) with hentry | hfailed
    · exact ⟨entry, (Except.ok.inj hentry).symm, rfl⟩
    · cases hfailed

section Sample
open Sample

/-- A retraction of the token `t`. -/
def Sample.retractCalls : List WireCalls.Event := [⟨.retract (bearerKey contract "t"), .ok ()⟩]

/-- A look-up that finds nothing. -/
def Sample.missedCalls : List WireCalls.Event := [⟨.get (bearerKey contract "t"), .ok none⟩]

theorem acknowledged_call_stands_sample : ∃ c₂ c₃,
    WireSegment contract state sealKey (.initial ⟨.initial Sample.moment, fun _ => none⟩)
      (.arrive 0 (.publish (.deleteBearer "t")) :: callsBy 0 retractCalls) c₂ ∧
    WireSegment contract state sealKey c₂
      (.arrive 1 (.resolve "t") :: callsBy 1 missedCalls) c₃ ∧
    ((.ok none : Except BearerValidatorError (Option BearerEntry)) =
      .ok (PublisherCall.entry (.deleteBearer "t")) ∨
      (.ok none : Except BearerValidatorError (Option BearerEntry)) =
        .error (.Read .Unavailable)) := by
  let bare : WireWorld := ⟨.initial Sample.moment, fun _ => none⟩
  let empty : WireWorld := bare.store (bearerKey contract "t") none
  have hretracted : Prog.Ran (deleteBearer contract "t") retractCalls (.ok ()) :=
    deleteBearer_ran.mpr rfl
  have hdeleted : Prog.Ran (startWire contract state sealKey (.publish (.deleteBearer "t")))
      retractCalls (.published (.ok ())) :=
    Prog.ran_bind.mpr ⟨.ok (), retractCalls, [], rfl, hretracted, .ret _⟩
  have hmissed : Prog.Ran (startWire contract state sealKey (.resolve "t")) missedCalls
      (.resolved (.ok none)) :=
    Prog.ran_bind.mpr ⟨.ok none, missedCalls, [], rfl, resolve_ran.mpr ⟨_, rfl, rfl⟩, .ret _⟩
  have hretract : (wire contract).answers bare ⟨.retract (bearerKey contract "t"), .ok ()⟩ empty :=
    .answered (.retract bare _)
  have hget : (wire contract).answers empty ⟨.get (bearerKey contract "t"), .ok none⟩ empty := by
    have hanswer := WireAnswers.answered (MapAnswers.get (W := contract) empty
      (bearerKey contract "t"))
    rwa [fetch_removed] at hanswer
  have hfirst := Trace.request (G := fun _ _ _ => True) (c := .initial bare) (t := 0)
    (fun _ _ _ => trivial) rfl hdeleted (Trace.one hretract)
  let middle : WireState := ⟨empty, Function.update (Config.initial bare).threads 0
    (some (.ret (.published (.ok ()))))⟩
  have hsecond := Trace.request (G := fun _ _ _ => True) (c := middle) (t := 1)
    (fun _ _ _ => trivial) rfl hmissed (Trace.one hget)
  refine ⟨_, _, hfirst, hsecond, ?_⟩
  refine (acknowledged_call_stands contract state sealKey bare [] (callsBy 0 retractCalls)
    (callsBy 1 missedCalls) (.initial bare) middle _ 0 1 (.deleteBearer "t") _ (.nil _) hfirst
    hsecond ?_ ?_ ?_ ?_).1 rfl _ ?_
  · simp [middle, Config.result, progView]
  · simp
  · simp [callsBy, retractCalls, missedCalls]
  · simp [callsBy, retractCalls, missedCalls]
  · simp [Config.result, progView]

end Sample

end Acknowledged

end SvcAuth
