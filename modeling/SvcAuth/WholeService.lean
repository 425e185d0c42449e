import SvcAuth.BearerForgery
import SvcAuth.FirstFamily
import SvcAuth.InterleaveCarried
import SvcAuth.JwksRefresh
import SvcAuth.PhaseFollows

/-! The whole service: the handlers over the refresh bucket, the bearers they resolve over
the published-language bucket, and the id_tokens they verify over the JWKS caches of the
providers, any number of requests in flight over all of these. What the handlers do with
bearers and id_tokens is several steps here. -/
namespace SvcAuth
open Interleave

inductive WholeOp
  | wire (o : WireOp)
  | oidc (o : OidcOp)
  deriving DecidableEq, Repr

def WholeOp.Reply : WholeOp → Type
  | .wire o => o.Reply
  | .oidc o => o.Reply

abbrev WholeCalls : Sig := ⟨WholeOp, WholeOp.Reply⟩

abbrev WholeAction := Prog WholeCalls

def onWire (o : WireOp) : WholeAction o.Reply := .op (S := WholeCalls) (.wire o)

def onOidc (o : OidcOp) : WholeAction o.Reply := .op (S := WholeCalls) (.oidc o)

/-- Both buckets, the caches of all providers, and the monotonic clock. -/
structure WholeWorld where
  wire : WireWorld
  jwks : OidcProvider → JwkSet
  lastRefresh : OidcProvider → ℕ
  ticks : ℕ

/-- After boot: nobody is logged in, and the providers have been discovered. -/
def WholeWorld.booted (clock : ℕ) (bearers : KvKey → Option Bytes)
    (jwks : OidcProvider → JwkSet) (lastRefresh : OidcProvider → ℕ) (ticks : ℕ) : WholeWorld :=
  ⟨⟨.initial clock, bearers⟩, jwks, lastRefresh, ticks⟩

/-- How the locks of the caches, the clocks and the identity providers answer. A fetch may
end in any way; the service has one wall clock. -/
inductive CacheAnswers : WholeWorld → (o : OidcOp) → o.Reply → WholeWorld → Prop
  | readJwks (w : WholeWorld) (p : OidcProvider) : CacheAnswers w (.readJwks p) (w.jwks p) w
  | elapsed (w : WholeWorld) (p : OidcProvider) :
      CacheAnswers w (.elapsed p) (w.ticks - w.lastRefresh p) w
  | fetchJwks (w : WholeWorld) (uri : String) (r : Except FetchError JwkSet) :
      CacheAnswers w (.fetchJwks uri) r w
  | writeJwks (w : WholeWorld) (p : OidcProvider) (jwks : JwkSet) :
      CacheAnswers w (.writeJwks p jwks) () { w with jwks := Function.update w.jwks p jwks }
  | resetLastRefresh (w : WholeWorld) (p : OidcProvider) :
      CacheAnswers w (.resetLastRefresh p) ()
        { w with lastRefresh := Function.update w.lastRefresh p w.ticks }
  | now (w : WholeWorld) : CacheAnswers w .now w.wire.service.clock w

/-- Time passes by both clocks, or others write to the bucket of bearers. -/
inductive WholeEvent
  | passage (e : Passage) (ticks : ℕ)
  | tamper (bearers : KvKey → Option Bytes)

/-- What the handlers notice of it. -/
def WholeEvent.seen : WholeEvent → Option Passage
  | .passage e _ => some e
  | .tamper _ => none

inductive Happens : WholeWorld → WholeEvent → WholeWorld → Prop
  | passage {w : WholeWorld} {e : Passage} {s : World} {n : ℕ}
      (h : Passes w.wire.service e s) :
      Happens w (.passage e n) { w with wire := { w.wire with service := s }, ticks := w.ticks + n }
  | tamper (w : WholeWorld) (bearers : KvKey → Option Bytes) :
      Happens w (.tamper bearers) { w with wire := { w.wire with bearers := bearers } }

variable (W : ContractDeps) (key : BearerSealKey) (providers : List OidcProvider) (S : AppState)

inductive WholeAnswers : WholeWorld → (o : WholeOp) → o.Reply → WholeWorld → Prop
  | wire {w : WholeWorld} {o : WireOp} {r : o.Reply} {x : WireWorld}
      (answer : WireAnswers W w.wire o r x) : WholeAnswers w (.wire o) r { w with wire := x }
  | oidc {w : WholeWorld} {o : OidcOp} {r : o.Reply} {w' : WholeWorld}
      (answer : CacheAnswers w o r w') : WholeAnswers w (.oidc o) r w'

def whole : System WholeCalls WholeWorld WholeEvent := ⟨WholeAnswers W, Happens⟩

/-- An id_token is verified over the caches; all other calls of the handlers go to the
buckets. -/
def carryWhole : (o : Op) → WholeAction o.Reply
  | .verifyIdToken idToken => (verifyIdToken W.toDeps providers idToken).interpret onOidc
  | o => (carryOut W key o).interpret onWire

/-- A request as the whole service answers it. -/
def serveWhole (q : Request) : WholeAction Response :=
  (serve W.toDeps S q).interpret (carryWhole W key providers)

abbrev WholeLabel := Label WholeCalls Request WholeEvent

abbrev WholeState := Config (WholeAction Response) WholeWorld

abbrev WholeState.response (c : WholeState) (t : ℕ) : Option Response :=
  c.result (Prog.machine WholeCalls Response) t

/-- What an assumption about the handlers says about the whole service. -/
def Throughall (G : Assumption) : Guard WholeCalls Response WholeWorld WholeEvent Request
  | w, responses, .arrive t q => G w.wire.service responses (.arrive t q)
  | w, responses, .call t (.wire (.service o)) r => G w.wire.service responses (.call t o r)
  | _, _, .call _ _ _ => True
  | w, responses, .env (.passage e _) => G w.wire.service responses (.env e)
  | _, _, .env (.tamper _) => True

/-- A run of the whole service. -/
abbrev WholeRun (G : Assumption) (w : WholeWorld) : List WholeLabel → WholeState → Prop :=
  Trace (GuardedStep (whole W) (Prog.machine WholeCalls Response) (serveWhole W key providers S)
    (Throughall G)) (.initial w)

/-- The assumption is about requests, time and the refresh bucket only. -/
structure BucketOnly (G : Assumption) : Prop where
  verifyIdToken : ∀ w responses t idToken r, G w responses (.call t (.verifyIdToken idToken) r)
  resolve : ∀ w responses t token r, G w responses (.call t (.resolve token) r)

section Calls
variable {W key providers} {w w' : WholeWorld}

theorem carryWhole_cases (W : ContractDeps) (key : BearerSealKey) (providers : List OidcProvider)
    (o : Op) : (∃ idToken, o = .verifyIdToken idToken) ∨ (∃ token, o = .resolve token) ∨
      carryWhole W key providers o = .call (.wire (.service o)) .ret := by
  cases o with
  | verifyIdToken idToken => exact .inl ⟨idToken, rfl⟩
  | resolve token => exact .inr (.inl ⟨token, rfl⟩)
  | _ => exact .inr (.inr rfl)

/-- A bearer is resolved in one call. -/
theorem carryWhole_resolve (W : ContractDeps) (key : BearerSealKey) (providers : List OidcProvider)
    (token : String) : carryWhole W key providers (.resolve token) =
      .call (.wire (.get (bearerKey W token))) fun r =>
        .ret ((resolveRead W key token r).mapError (BearerValidatorError.toString W)) := by
  have hcarried : carryWhole W key providers (.resolve token) = (resolve W key token >>= fun r =>
      .ret (r.mapError (BearerValidatorError.toString W))).interpret onWire := rfl
  rw [hcarried, resolve_eq, Prog.call_bind, Prog.interpret_call]
  rfl

/-- All calls of a verification are to the caches. -/
theorem verification_calls {idToken : String} {tr : List WholeCalls.Event} {o : WholeOp}
    {k : o.Reply → WholeAction (Except String OidcClaims)}
    (h : Prog.After (carryWhole W key providers (.verifyIdToken idToken)) tr (.call o k)) :
    ∃ o', o = .oidc o' := by
  obtain ⟨es, o', k', t₁, t₂, k₀, -, -, -, hinside⟩ := Prog.after_interpret h
  rcases Prog.after_call.mp hinside with ⟨-, heq⟩ | ⟨r, rest, -, hdone⟩
  · cases heq
    exact ⟨o', rfl⟩
  · exact hdone.not_ret.elim

theorem CacheAnswers.wire {o : OidcOp} {r : o.Reply} (h : CacheAnswers w o r w') :
    w'.wire = w.wire := by
  cases h <;> rfl

theorem WireAnswers.of_service {x x' : WireWorld} {o : Op} {r : o.Reply}
    (h : WireAnswers W x (.service o) r x') : Answers x.service o r x'.service := by
  cases h with
  | answered answer =>
    cases answer with
    | service answer => exact answer

theorem WireAnswers.of_get {x x' : WireWorld} {k : KvKey}
    {r : Except FabricError (Option SealedBearer)} (h : WireAnswers W x (.get k) r x') : x' = x := by
  cases h with
  | answered answer =>
    cases answer with
    | get => rfl
  | getFailed => rfl

end Calls

section Refinement
variable {W key providers S} {G : Assumption}

theorem whole_carries : CarriesOut service (whole W) (carryWhole W key providers)
    (fun w => w.wire.service) WholeEvent.seen where
  at_once := by
    intro o r w h
    rcases carryWhole_cases W key providers o with ⟨idToken, rfl⟩ | ⟨token, rfl⟩ | hown
    · exact .verifyIdToken _ _ _
    · rw [carryWhole_resolve] at h
      cases h
    · rw [hown] at h
      cases h
  call := by
    intro o tr o' k r' w w' hafter answer
    rcases carryWhole_cases W key providers o with ⟨idToken, rfl⟩ | ⟨token, rfl⟩ | hown
    · obtain ⟨o'', rfl⟩ := verification_calls hafter
      have hsame : w'.wire = w.wire := by
        cases answer with
        | oidc answer => exact answer.wire
      cases hk : k r' with
      | ret r => exact .inl ⟨r, rfl, hsame ▸ .verifyIdToken _ _ _⟩
      | call o₂ k₂ => exact .inr ⟨⟨o₂, k₂, rfl⟩, by rw [hsame]⟩
    · rw [carryWhole_resolve] at hafter
      rcases Prog.after_call.mp hafter with ⟨-, heq⟩ | ⟨r, rest, -, hdone⟩
      · cases heq
        cases answer with
        | wire answer =>
          rw [answer.of_get]
          exact .inl ⟨_, rfl, .resolve _ _ _⟩
      · exact hdone.not_ret.elim
    · rw [hown] at hafter
      rcases Prog.after_call.mp hafter with ⟨-, heq⟩ | ⟨r, rest, -, hdone⟩
      · cases heq
        cases answer with
        | wire answer => exact .inl ⟨r', rfl, answer.of_service⟩
      · exact hdone.not_ret.elim
  env := by
    intro w w' f h
    cases h with
    | passage h => exact .inl ⟨_, rfl, h⟩
    | tamper bearers => exact .inr ⟨rfl, rfl⟩

theorem throughall_above (hG : BucketOnly G) : GuardAbove (carryWhole W key providers) G
    (Throughall G) (fun w : WholeWorld => w.wire.service) WholeEvent.seen where
  arrive := fun h => h
  at_once := by
    intro w responses t o r h
    rcases carryWhole_cases W key providers o with ⟨idToken, rfl⟩ | ⟨token, rfl⟩ | hown
    · exact hG.verifyIdToken _ _ _ _ _
    · exact hG.resolve _ _ _ _ _
    · rw [hown] at h
      cases h
  call := by
    intro w responses t o tr o' k r' r hafter hlast hallowed
    rcases carryWhole_cases W key providers o with ⟨idToken, rfl⟩ | ⟨token, rfl⟩ | hown
    · exact hG.verifyIdToken _ _ _ _ _
    · exact hG.resolve _ _ _ _ _
    · rw [hown] at hafter
      rcases Prog.after_call.mp hafter with ⟨-, heq⟩ | ⟨r, rest, -, hdone⟩
      · cases heq
        cases hlast
        exact hallowed
      · exact hdone.not_ret.elim
  env := by
    intro w responses f e hseen h
    cases f with
    | passage e' n =>
      cases hseen
      exact h
    | tamper bearers => cases hseen

/-- A run of the whole, and the run of the service above it. -/
theorem WholeRun.service (hG : BucketOnly G) {clock boot : ℕ} {bearers : KvKey → Option Bytes}
    {jwks : OidcProvider → JwkSet} {lastRefresh : OidcProvider → ℕ} {ms : List WholeLabel}
    {d : WholeState} (h : WholeRun W key providers S G
      (.booted clock bearers jwks lastRefresh boot) ms d) :
    ∃ (ls : List Event) (c : ServiceState), Run W.toDeps S G clock ls c ∧
      (∀ t, c.response t = d.response t) ∧
      Above (carryWhole W key providers) (fun w => w.wire.service) WholeEvent.seen ls c ms d := by
  obtain ⟨ls, c, hrun, habove⟩ := Trace.above whole_carries (throughall_above hG) h
  exact ⟨ls, c, hrun, fun t => congrFun habove.result t, habove⟩

/-- The whole service behaves as the service whose handlers get what they ask about bearers
and id_tokens in one step. Under every assumption about its requests, its clock and the
refresh bucket, each run of the whole has a run of the service with the same requests and
passages, the same responses and the same bucket; and every answer of that run was worked
out by calls that its request made in the whole. -/
theorem whole_refines (W : ContractDeps) (key : BearerSealKey) (providers : List OidcProvider)
    (S : AppState) (G : Assumption) (hG : BucketOnly G) (clock : ℕ)
    (bearers : KvKey → Option Bytes) (jwks : OidcProvider → JwkSet)
    (lastRefresh : OidcProvider → ℕ) (ticks : ℕ) (ms : List WholeLabel) (d : WholeState)
    (h : WholeRun W key providers S G (.booted clock bearers jwks lastRefresh ticks) ms d) :
    ∃ (ls : List Event) (c : ServiceState), Run W.toDeps S G clock ls c ∧
      (∀ t, c.response t = d.response t) ∧ c.world = d.world.wire.service ∧
      outside ls = (outside ms).filterMap (shown WholeEvent.seen) ∧
      ∀ t o r, .call t o r ∈ ls → ∃ before mid after, callsOf t ms = before ++ (mid ++ after) ∧
        Prog.Ran (carryWhole W key providers o) mid r := by
  obtain ⟨ls, c, hrun, hresponse, habove⟩ := WholeRun.service hG h
  exact ⟨ls, c, hrun, hresponse, habove.world, habove.visible,
    fun t o r hcall => habove.carried hcall⟩

end Refinement

section Assumptions
variable {D : Deps} {S : AppState} {G H : Assumption}

theorem bucketOnly_unforged : BucketOnly (Unforged D S) :=
  ⟨fun _ _ _ _ _ => trivial, fun _ _ _ _ _ => trivial⟩

theorem throughall_unforged (t : ℕ) (w : WholeWorld) (responses : ℕ → Option Response)
    (o : WholeOp) (r : o.Reply) : Throughall (Unforged D S) w responses (.call t o r) := by
  cases o with
  | wire o => cases o <;> trivial
  | oidc o => trivial

end Assumptions

section Sample
variable {W : ContractDeps} {key : BearerSealKey} {providers : List OidcProvider}

/-- A call of the handlers as a call of the whole. -/
def ownCall (e : Calls.Event) : WholeCalls.Event := ⟨.wire (.service e.1), e.2⟩

/-- A call of the validator as a call of the whole. -/
def cacheCall (e : OidcCalls.Event) : WholeCalls.Event := ⟨.oidc e.1, e.2⟩

theorem carried_own {es : List Calls.Event}
    (hown : ∀ e ∈ es, carryWhole W key providers e.1 = .call (.wire (.service e.1)) .ret) :
    Prog.Carried (carryWhole W key providers) es (es.map ownCall) := by
  refine .map fun e he => ?_
  rw [hown e he]
  exact .call (.ret _)

theorem own_answers {w : WholeWorld} {es : List Calls.Event} {s : World}
    (h : Trace service.answers w.wire.service es s) :
    Trace (whole W).answers w (es.map ownCall) { w with wire := { w.wire with service := s } } := by
  induction h with
  | nil => exact .nil _
  | @snoc s s' es e prior last ih =>
    rw [List.map_append]
    have hlast : WireAnswers W { w.wire with service := s } (.service e.1) e.2
        { w.wire with service := s' } := .answered (.service last)
    exact .snoc ih (.wire hlast)

/-- The sample provider as the environment names it, with a cooldown of a minute. -/
def Sample.idp : OidcProvider :=
  { provider with name := "example", refreshCooldown := 60000000000 }

/-- The id_token of the sample provider for this client. -/
def Sample.idToken : String := sampleToken (some "client")

theorem Sample.idToken_accepted : Prog.Ran (verifyIdToken deps [idp] idToken)
    [⟨.readJwks idp, ⟨[jwk]⟩⟩, ⟨.now, moment⟩] (.ok ⟨"user@example.com"⟩) := by
  have hms : ∀ m ∈ idClaims (some "client"), m.2.Scalar := by simp [idClaims, Json.Scalar]
  exact (hmacToken_accepted decodingKeyFromJwk_jwk rfl hms (by decide) rfl (by decide)
    (by decide)).2

/-- What a login does behind its id_token. -/
def openingCalls (D : Deps) (p : Opening) (sid : Uuid) : List Calls.Event :=
  [⟨.utcNow, p.signed⟩, ⟨.nowV7, p.id⟩, ⟨.utcNow, p.refreshed⟩, ⟨.nowV7, p.family⟩,
    ⟨.utcNow, p.created⟩, ⟨.put (rowKey D p.id) (.token p.row), .ok ()⟩, ⟨.nowV7, sid⟩]

theorem loginLog_calls (D : Deps) (t : ℕ) (idToken : String) (p : Opening) (sid : Uuid) :
    callsOf t (loginLog D t idToken p sid) =
      ⟨.verifyIdToken idToken, .ok ⟨p.email⟩⟩ :: openingCalls D p sid := by
  simp [loginLog, callsOf, openingCalls]

theorem openingCalls_own (D : Deps) (p : Opening) (sid : Uuid) : ∀ e ∈ openingCalls D p sid,
    carryWhole W key providers e.1 = .call (.wire (.service e.1)) .ret := by
  intro e he
  simp only [openingCalls, List.mem_cons, List.not_mem_nil, or_false] at he
  rcases he with rfl | rfl | rfl | rfl | rfl | rfl | rfl <;> rfl

/-- The calls of the login, in the whole. -/
def Sample.loginCalls : List WholeCalls.Event :=
  [⟨.oidc (.readJwks Sample.idp), (⟨[Sample.jwk]⟩ : JwkSet)⟩, ⟨.oidc .now, moment⟩] ++
    (openingCalls deps (firstLogin Sample.moment) (serial 3)).map ownCall

/-- What the login gets from the handlers. -/
theorem Sample.login_ran : ∃ r, Prog.Ran (serve Sample.deps Sample.state (.loggingIn idToken))
    (⟨.verifyIdToken idToken, .ok ⟨"user@example.com"⟩⟩ ::
      openingCalls deps (firstLogin Sample.moment) (serial 3)) r ∧
    r.Sets Sample.state.cookieConfig.accessCookieName
      (Sample.state.jwt.accessToken Sample.deps "user@example.com" Sample.moment) := by
  have hne : idToken ≠ "" := JsonWebToken.Codecs.hmacToken_ne_empty _ _ _
  have hemail : "user@example.com" ≠ "" := by decide
  have hrun := login_served (D := Sample.deps) (S := Sample.state) (G := Unrestricted) (t := 0)
    (c := .initial (.initial Sample.moment)) permits_unrestricted rfl hne hemail
    (show serial 1 ∉ (World.initial Sample.moment).minted by simp)
    (show serial 2 ∉ [serial 1] by simp +decide)
    (show serial 3 ∉ [serial 2, serial 1] by simp +decide)
  obtain ⟨c, hc, hm⟩ := PhaseSegment.service (mirrors_initial _) hrun
  have hresponse := (hm.response 0).trans (done_responds (Config.move_same _ _ _ _))
  have hran := Trace.request_ran hc (.head _) hresponse
  rw [loginLog_calls] at hran
  refine ⟨_, hran, ?_⟩
  exact (sets_access (view_done _ _ _) (JwtService.accessToken_ne_empty _ _ _ _)).mpr
    ⟨.opened (firstLogin Sample.moment), _, rfl, rfl⟩

theorem Sample.own_calls : Trace service.answers (.initial moment)
    (openingCalls deps (firstLogin Sample.moment) (serial 3))
    ((((World.initial Sample.moment).mint (serial 1)).mint (serial 2)).put
      (rowKey Sample.deps (serial 1)) (.token (firstLogin Sample.moment).row) |>.mint (serial 3)) := by
  have hsecond : serial 2 ∉ ((World.initial Sample.moment).mint (serial 1)).minted := by simp +decide
  have hthird :
      serial 3 ∉ (((World.initial Sample.moment).mint (serial 1)).mint (serial 2)).minted := by
    simp +decide
  refine Trace.cons_iff.mpr ⟨_, .utcNow _, ?_⟩
  refine Trace.cons_iff.mpr ⟨_, .nowV7 _ (serial 1) (by simp), ?_⟩
  refine Trace.cons_iff.mpr ⟨_, .utcNow ((World.initial Sample.moment).mint (serial 1)), ?_⟩
  refine Trace.cons_iff.mpr ⟨_, .nowV7 _ _ hsecond, ?_⟩
  refine Trace.cons_iff.mpr
    ⟨_, .utcNow (((World.initial Sample.moment).mint (serial 1)).mint (serial 2)), ?_⟩
  exact Trace.cons_iff.mpr ⟨_, .put _ _ _, .one (.nowV7 _ _ hthird)⟩

/-- The login in the whole: the id_token is verified over the key that was served. -/
theorem Sample.whole_login {served : OidcProvider → JwkSet} (lastRefresh : OidcProvider → ℕ)
    (hserved : served idp = ⟨[jwk]⟩) : ∃ d r, WholeRun contract sealKey [idp] state
    (Unforged Sample.deps state) (.booted moment (fun _ => none) served lastRefresh 0)
    (.arrive 0 (.loggingIn idToken) :: callsBy 0 loginCalls) d ∧ d.response 0 = some r ∧
    r.Sets state.cookieConfig.accessCookieName
      (state.jwt.accessToken Sample.deps "user@example.com" Sample.moment) := by
  let wholeBooted : WholeWorld := .booted moment (fun _ => none) served lastRefresh 0
  have hread : CacheAnswers wholeBooted (.readJwks idp) (⟨[jwk]⟩ : JwkSet) wholeBooted := by
    have hanswer := CacheAnswers.readJwks wholeBooted idp
    rwa [show wholeBooted.jwks idp = ⟨[jwk]⟩ from hserved] at hanswer
  obtain ⟨r, hran, hsets⟩ := login_ran
  have hverified : Prog.Ran (carryWhole contract sealKey [idp] (.verifyIdToken idToken))
      [⟨.oidc (.readJwks idp), (⟨[jwk]⟩ : JwkSet)⟩, ⟨.oidc .now, moment⟩]
      (.ok ⟨"user@example.com"⟩) := by
    refine Prog.ran_interpret.mpr ⟨_, idToken_accepted, ?_⟩
    exact .map (f := cacheCall) fun e _ => .call (.ret _)
  have hwhole : Prog.Ran (serveWhole contract sealKey [idp] state (.loggingIn idToken))
      loginCalls r := by
    refine Prog.ran_interpret.mpr ⟨_, hran, ?_⟩
    exact .cons hverified (carried_own (openingCalls_own _ _ _))
  have hworld : Trace (whole contract).answers wholeBooted loginCalls
      { wholeBooted with wire := ⟨_, fun _ => none⟩ } :=
    Trace.cons_iff.mpr ⟨_, .oidc hread,
      Trace.cons_iff.mpr ⟨_, .oidc (.now _), own_answers own_calls⟩⟩
  let booted : WholeState := .initial wholeBooted
  let arrived : WholeState := ⟨wholeBooted, Function.update booted.threads 0
    (some (serveWhole contract sealKey [idp] state (.loggingIn idToken)))⟩
  have hhere : arrived.threads 0 =
      some (serveWhole contract sealKey [idp] state (.loggingIn idToken)) := by
    simp only [arrived, Function.update_self]
  have hserved : Trace (GuardedStep (whole contract) (Prog.machine WholeCalls Response)
      (serveWhole contract sealKey [idp] state) (Throughall (Unforged deps state))) arrived
      (callsBy 0 loginCalls) ⟨_, Function.update arrived.threads 0 (some (.ret r))⟩ :=
    Trace.undisturbed (throughall_unforged _) hhere hwhole.after hworld
  refine ⟨_, r, Trace.cons_iff.mpr ⟨arrived, ⟨.arrive rfl, ?_⟩, hserved⟩, ?_, hsets⟩
  · intro jwt hjwt
    cases hjwt
  · simp [Config.result, progView]

/-- The login of the whole is a login of the service. -/
theorem whole_refines_sample : ∃ ls c r, Run Sample.deps Sample.state
    (Unforged Sample.deps Sample.state) Sample.moment ls c ∧ c.response 0 = some r ∧
    r.Sets Sample.state.cookieConfig.accessCookieName
      (Sample.state.jwt.accessToken Sample.deps "user@example.com" Sample.moment) := by
  let served : OidcProvider → JwkSet := fun _ => ⟨[Sample.jwk]⟩
  have hserved : served Sample.idp = ⟨[Sample.jwk]⟩ := rfl
  obtain ⟨d, r, hrun, hr, hset⟩ := Sample.whole_login (fun _ => 0) hserved
  obtain ⟨ls, c, hservice, hresponse, -⟩ := whole_refines Sample.contract Sample.sealKey
    [Sample.idp] Sample.state _ bucketOnly_unforged Sample.moment _ _ _ 0 _ d hrun
  exact ⟨ls, c, r, hservice, (hresponse 0).trans hr, hset⟩

end Sample

end SvcAuth
