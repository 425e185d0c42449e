import SvcAuth.Configuration
import SvcAuth.VouchedSessions

/-! How the service boots. It loads its configuration, connects to the buckets and discovers
its providers, and ends at the first of these that fails. What it then serves with is traced
back to the environment, and with it every token that it hands out. -/
namespace SvcAuth
open Interleave Numerals

structure DiscoveryDocument where
  issuer : String
  jwksUri : String
  deriving DecidableEq, Repr

/-- The calls of `main`: to the metrics recorder, the fabric with its two buckets, the
providers, the monotonic clock and the port. -/
inductive BootOp
  | initMetrics
  | connect (natsUrl : String)
  | openBearers
  | openTokens
  | openRevokedFamilies
  | buildClient
  | getDiscovery (url : String)
  | getJwks (uri : String)
  | instantNow
  | status
  | getProbe (key : KvKey)
  | bind (port : UInt16)

def BootOp.Reply : BootOp → Type
  | .initMetrics => Except String Unit
  | .connect _ => Except String Unit
  | .openBearers => Except FabricError Unit
  | .openTokens => Except FabricError Unit
  | .openRevokedFamilies => Except FabricError Unit
  | .buildClient => Except String Unit
  | .getDiscovery _ => Except FetchError DiscoveryDocument
  | .getJwks _ => Except FetchError JwkSet
  | .instantNow => ℕ
  | .status => Except FabricError Unit
  | .getProbe _ => Except FabricError Unit
  | .bind _ => Except String Unit

abbrev BootCalls : Sig := ⟨BootOp, BootOp.Reply⟩

abbrev BootAction := Prog BootCalls

def bootCall (o : BootOp) : BootAction o.Reply := .op (S := BootCalls) o

section Discovery

/-- A provider with the keys it was created with, and when that was. -/
structure Discovered where
  provider : OidcProvider
  jwks : JwkSet
  lastRefresh : ℕ

/-- `Duration::from_secs`, in nanoseconds as the monotonic clock counts. -/
def durationFromSecs (secs : UInt64) : ℕ := secs.toNat * 1000000000

def trimEndSlashes (s : String) : String := .ofList (s.toList.rdropWhile (· == '/'))

def OidcProviderConfig.documentUrl (config : OidcProviderConfig) : String :=
  trimEndSlashes config.discoveryUrl ++ "/.well-known/openid-configuration"

/-- The body of the loop of `discover`. -/
def discoverProvider (refreshCooldown : ℕ) (config : OidcProviderConfig) :
    BootAction (Except String Discovered) := do
  match ← bootCall (.getDiscovery config.documentUrl) with
  | .error (.send e) => return .error ("OIDC discovery failed for " ++ config.name ++ ": " ++ e)
  | .error (.json e) =>
    return .error ("OIDC discovery parse failed for " ++ config.name ++ ": " ++ e)
  | .ok discovery =>
    match ← bootCall (.getJwks discovery.jwksUri) with
    | .error (.send e) => return .error ("JWKS fetch failed for " ++ config.name ++ ": " ++ e)
    | .error (.json e) => return .error ("JWKS parse failed for " ++ config.name ++ ": " ++ e)
    | .ok initialJwks => do
      let now ← bootCall .instantNow
      return .ok ⟨⟨config.name, discovery.issuer, config.clientId, config.emailClaim,
        discovery.jwksUri, refreshCooldown⟩, initialJwks, now⟩

/-- The loop over the configurations that are left, with the providers found so far. -/
def discoverProviders (refreshCooldown : ℕ) : List OidcProviderConfig → List Discovered →
    BootAction (Except String (List Discovered))
  | [], providers => return .ok providers
  | config :: configs, providers => do
    match ← discoverProvider refreshCooldown config with
    | .error e => return .error e
    | .ok p => discoverProviders refreshCooldown configs (providers ++ [p])

/-- `OidcValidator::discover`. -/
def discover (configs : List OidcProviderConfig) (refreshCooldown : ℕ) :
    BootAction (Except String (List Discovered)) := do
  match ← bootCall .buildClient with
  | .error e => return .error ("failed to build HTTP client: " ++ e)
  | .ok () => discoverProviders refreshCooldown configs []

end Discovery

section Main
variable (D : Deps) (toLowercase debug : String → String) (args : List String) (env : Env)

/-- The service at the moment it begins to serve. -/
structure Booted where
  config : ServiceConfig
  providers : List Discovered
  ready : Bool

/-- How `main` ends: with its version, with an error logged and exit code 1, in a panic, or
not, because it serves. -/
inductive BootOutcome
  | version
  | exited (message error : String)
  | panicked
  | serving (b : Booted)

/-- Go on with what a step of the boot gave, or log its error and exit. -/
def orExit {α : Type} (message : String) (r : Except String α) (k : α → BootAction BootOutcome) :
    BootAction BootOutcome :=
  match r with
  | .ok a => k a
  | .error e => return .exited message e

def healthProbeKey : String := "identity/bearer_tokens/__health_probe__"

/-- `BearerValidator::is_healthy`. -/
def bearersHealthy : BootAction Bool :=
  match D.kvKeyNew healthProbeKey with
  | .error _ => return false
  | .ok probe => do return (← bootCall (.getProbe probe)).isOk

/-- `RefreshTokenStore::open`. -/
def openRefreshStore : BootAction (Except String Unit) := do
  let opening := fun e => "opening the EPHEMERAL_AUTH store failed: " ++ D.fabricErrorToString e
  match ← bootCall .openTokens with
  | .error e => return .error (opening e)
  | .ok () => return (← bootCall .openRevokedFamilies).mapError opening

/-- `BearerValidator::open`. -/
def openBearerValidator : BootAction (Except String Unit) := do
  return (← bootCall .openBearers).mapError fun e =>
    "opening the PUBLISHED_LANGUAGE bearer reader failed: " ++ D.fabricErrorToString e

/-- The providers `main` serves with; with none configured nothing is fetched. -/
def initProviders (config : ServiceConfig) : BootAction (Except String (List Discovered)) :=
  if config.oidcProviders.isEmpty then return .ok []
  else discover config.oidcProviders (durationFromSecs config.jwksRefreshCooldownSecs)

/-- `main` once its configuration is loaded. -/
def bootWith (config : ServiceConfig) : BootAction BootOutcome := do
  orExit "failed to connect the NATS fabric" (← bootCall (.connect config.natsUrl)) fun _ => do
  orExit "PUBLISHED_LANGUAGE bearer reader bind failed (declared bucket missing)"
    (← openBearerValidator D) fun _ => do
  orExit "EPHEMERAL_AUTH store bind failed (declared bucket missing)" (← openRefreshStore D)
    fun _ => do
  orExit "failed to initialize OIDC providers" (← initProviders config) fun providers => do
  let refreshStoreOk := (← bootCall .status).isOk
  let bearerOk ← bearersHealthy D
  match ← bootCall (.bind config.port) with
  | .error _ => return .panicked
  | .ok () => return .serving ⟨config, providers, refreshStoreOk && bearerOk⟩

/-- `main`, up to the moment it serves. -/
def main : BootAction BootOutcome := do
  if args.any fun a => a == "--version" || a == "-V" then return .version
  else
    orExit "failed to install metrics recorder" (← bootCall .initMetrics) fun _ =>
    match fromEnv D toLowercase debug env with
    | none => return .panicked
    | some config => orExit "failed to load configuration" config (bootWith D)

end Main

section Found
variable {refreshCooldown : ℕ} {config : OidcProviderConfig} {configs : List OidcProviderConfig}
  {tr tr' : List BootCalls.Event} {p : Discovered} {found : List Discovered}

/-- The provider is the one configured: its document was fetched from the configured place,
and its keys from where the document says. -/
def FoundBy (refreshCooldown : ℕ) (tr : List BootCalls.Event) (config : OidcProviderConfig)
    (p : Discovered) : Prop :=
  ∃ doc : DiscoveryDocument, ⟨.getDiscovery config.documentUrl, .ok doc⟩ ∈ tr ∧
    ⟨.getJwks doc.jwksUri, .ok p.jwks⟩ ∈ tr ∧
    p.provider = ⟨config.name, doc.issuer, config.clientId, config.emailClaim, doc.jwksUri,
      refreshCooldown⟩

theorem FoundBy.mono (hsub : tr ⊆ tr') (h : FoundBy refreshCooldown tr config p) :
    FoundBy refreshCooldown tr' config p := by
  obtain ⟨doc, hdoc, hjwks, hp⟩ := h
  exact ⟨doc, hsub hdoc, hsub hjwks, hp⟩

theorem discoverProvider_ran (h : Prog.Ran (discoverProvider refreshCooldown config) tr (.ok p)) :
    FoundBy refreshCooldown tr config p := by
  obtain ⟨r, rest, rfl, h₁⟩ := Prog.ran_call.mp h
  rcases r with (e | e) | doc
  · cases (Prog.ran_ret.mp h₁).2
  · cases (Prog.ran_ret.mp h₁).2
  · obtain ⟨r, rest, rfl, h₂⟩ := Prog.ran_call.mp h₁
    rcases r with (e | e) | jwks
    · cases (Prog.ran_ret.mp h₂).2
    · cases (Prog.ran_ret.mp h₂).2
    · obtain ⟨now, rest, rfl, h₃⟩ := Prog.ran_call.mp h₂
      obtain ⟨rfl, hp⟩ := Prog.ran_ret.mp h₃
      cases hp
      exact ⟨doc, by simp, by simp, rfl⟩

theorem discoverProviders_ran {ps : List Discovered}
    (h : Prog.Ran (discoverProviders refreshCooldown configs found) tr (.ok ps)) :
    ∃ new, ps = found ++ new ∧ List.Forall₂ (FoundBy refreshCooldown tr) configs new := by
  induction configs generalizing found tr with
  | nil =>
    obtain ⟨-, hps⟩ := Prog.ran_ret.mp h
    cases hps
    exact ⟨[], (List.append_nil _).symm, .nil⟩
  | cons config configs ih =>
    rw [discoverProviders] at h
    obtain ⟨r, t₁, t₂, rfl, hfirst, hrest⟩ := Prog.ran_bind.mp h
    cases r with
    | error e => cases (Prog.ran_ret.mp hrest).2
    | ok p =>
      obtain ⟨new, rfl, hnew⟩ := ih hrest
      refine ⟨p :: new, by simp, .cons ?_ ?_⟩
      · exact (discoverProvider_ran hfirst).mono (List.subset_append_left _ _)
      · exact hnew.imp fun _ _ h => h.mono (List.subset_append_right _ _)

theorem found_config {ps : List Discovered}
    (h : List.Forall₂ (FoundBy refreshCooldown tr) configs ps) (hp : p ∈ ps) :
    ∃ config ∈ configs, FoundBy refreshCooldown tr config p := by
  induction h with
  | nil => cases hp
  | @cons config _ _ _ hfirst hrest ih =>
    rcases List.mem_cons.mp hp with rfl | hp
    · exact ⟨config, List.mem_cons_self, hfirst⟩
    · obtain ⟨config, hconfig, hfound⟩ := ih hp
      exact ⟨config, List.mem_cons_of_mem _ hconfig, hfound⟩

theorem initProviders_ran {c : ServiceConfig} {ps : List Discovered}
    (h : Prog.Ran (initProviders c) tr (.ok ps)) :
    List.Forall₂ (FoundBy (durationFromSecs c.jwksRefreshCooldownSecs) tr) c.oidcProviders ps := by
  rw [initProviders] at h
  split at h
  · rename_i hnone
    obtain ⟨-, hps⟩ := Prog.ran_ret.mp h
    cases hps
    rw [List.isEmpty_iff.mp hnone]
    exact .nil
  · obtain ⟨r, rest, rfl, h₁⟩ := Prog.ran_call.mp h
    cases r with
    | error e => cases (Prog.ran_ret.mp h₁).2
    | ok u =>
      obtain ⟨new, rfl, hnew⟩ := discoverProviders_ran h₁
      exact hnew.imp fun _ _ h => h.mono (List.subset_cons_self _ _)

end Found

section Serving
variable {D : Deps} {toLowercase debug : String → String} {args : List String} {env : Env}
  {tr : List BootCalls.Event} {b : Booted}

theorem orExit_serving {α : Type} {message : String} {r : Except String α}
    {k : α → BootAction BootOutcome} (h : Prog.Ran (orExit message r k) tr (.serving b)) :
    ∃ a, r = .ok a ∧ Prog.Ran (k a) tr (.serving b) := by
  cases r with
  | error e => cases (Prog.ran_ret.mp h).2
  | ok a => exact ⟨a, rfl, h⟩

theorem step_serving {α : Type} {message : String} {p : BootAction (Except String α)}
    {k : α → BootAction BootOutcome}
    (h : Prog.Ran (p >>= fun r => orExit message r k) tr (.serving b)) :
    ∃ a t₁ t₂, tr = t₁ ++ t₂ ∧ Prog.Ran p t₁ (.ok a) ∧ Prog.Ran (k a) t₂ (.serving b) := by
  obtain ⟨r, t₁, t₂, rfl, hp, hk⟩ := Prog.ran_bind.mp h
  obtain ⟨a, rfl, hk⟩ := orExit_serving hk
  exact ⟨a, t₁, t₂, rfl, hp, hk⟩

/-- The service serves with the configuration it was started with, and with the providers
that it found by it. -/
theorem bootWith_ran {c : ServiceConfig} (h : Prog.Ran (bootWith D c) tr (.serving b)) :
    b.config = c ∧ List.Forall₂ (FoundBy (durationFromSecs c.jwksRefreshCooldownSecs) tr)
      c.oidcProviders b.providers := by
  obtain ⟨-, t₁, u₁, rfl, -, h₁⟩ := step_serving h
  obtain ⟨-, t₂, u₂, rfl, -, h₂⟩ := step_serving h₁
  obtain ⟨-, t₃, u₃, rfl, -, h₃⟩ := step_serving h₂
  obtain ⟨ps, t₄, u₄, rfl, hproviders, h₄⟩ := step_serving h₃
  obtain ⟨status, t₅, u₅, rfl, -, h₅⟩ := Prog.ran_bind.mp h₄
  obtain ⟨healthy, t₆, u₆, rfl, -, h₆⟩ := Prog.ran_bind.mp h₅
  obtain ⟨r, t₇, u₇, rfl, -, h₇⟩ := Prog.ran_bind.mp h₆
  cases r with
  | error e => cases (Prog.ran_ret.mp h₇).2
  | ok u =>
    obtain ⟨-, hb⟩ := Prog.ran_ret.mp h₇
    cases hb
    refine ⟨rfl, (initProviders_ran hproviders).imp fun _ _ h => h.mono ?_⟩
    intro e he
    simp [he]

theorem main_ran (h : Prog.Ran (main D toLowercase debug args env) tr (.serving b)) :
    fromEnv D toLowercase debug env = some (.ok b.config) ∧
    List.Forall₂ (FoundBy (durationFromSecs b.config.jwksRefreshCooldownSecs) tr)
      b.config.oidcProviders b.providers := by
  rw [main] at h
  split at h
  · cases (Prog.ran_ret.mp h).2
  · obtain ⟨-, t₁, u₁, rfl, -, h₁⟩ := step_serving h
    cases hloaded : fromEnv D toLowercase debug env with
    | none =>
      rw [hloaded] at h₁
      cases (Prog.ran_ret.mp h₁).2
    | some r =>
      rw [hloaded] at h₁
      obtain ⟨c, rfl, h₂⟩ := orExit_serving h₁
      obtain ⟨rfl, hfound⟩ := bootWith_ran h₂
      exact ⟨rfl, hfound.imp fun _ _ h => h.mono (List.subset_append_right _ _)⟩

end Serving

section Trust
variable {W : ContractDeps} {toLowercase debug : String → String} {args : List String} {env : Env}
  {boot : List BootCalls.Event} {b : Booted} {ms : List WholeLabel}

def Booted.oidcProviders (b : Booted) : List OidcProvider := b.providers.map (·.provider)

/-- The keys that the cache of a provider was created with. -/
def Booted.served (b : Booted) (p : OidcProvider) : JwkSet :=
  ((b.providers.find? (·.provider = p)).map (·.jwks)).getD ⟨[]⟩

def Booted.lastRefresh (b : Booted) (p : OidcProvider) : ℕ :=
  ((b.providers.find? (·.provider = p)).map (·.lastRefresh)).getD 0

theorem Booted.found {p : OidcProvider} (h : p ∈ b.oidcProviders) :
    ∃ f ∈ b.providers, f.provider = p ∧ b.served p = f.jwks := by
  obtain ⟨g, hg, rfl⟩ := List.mem_map.mp h
  cases hfind : b.providers.find? (·.provider = g.provider) with
  | none => simpa using List.find?_eq_none.mp hfind g hg
  | some f =>
    refine ⟨f, List.mem_of_find?_eq_some hfind, by simpa using List.find?_some hfind, ?_⟩
    simp [Booted.served, hfind]

/-- A key set of a provider of the environment: the document at its discovery URL, as it was
fetched at boot, says where the set was fetched from, at boot or for a later request. -/
def ServedBy (env : Env) (boot : List BootCalls.Event) (ms : List WholeLabel) (name : String)
    (doc : DiscoveryDocument) (jwks : JwkSet) : Prop :=
  (∃ config : OidcProviderConfig, env.var (discoveryKey name) = some config.discoveryUrl ∧
    ⟨.getDiscovery config.documentUrl, .ok doc⟩ ∈ boot) ∧
  (⟨.getJwks doc.jwksUri, .ok jwks⟩ ∈ boot ∨
    ∃ t, .call t (.oidc (.fetchJwks doc.jwksUri)) (.ok jwks) ∈ ms)

/-- The email was proved to a provider of the environment: a login presented an id_token that
names the issuer of the document, and is signed under a key of a set that was served. -/
def TracedBack (W : ContractDeps) (env : Env) (boot : List BootCalls.Event)
    (ms : List WholeLabel) (email : String) : Prop :=
  ∃ name doc jwks p u headers grant idToken now,
    ServedBy env boot ms name doc jwks ∧ p.issuer = doc.issuer ∧
    p.clientId = env.clientId name ∧ p.emailClaim = (env.var (emailClaimKey name)).getD "email" ∧
    .arrive u (.token headers (some ⟨grant, some idToken⟩)) ∈ ms ∧
    .call u (.oidc .now) now ∈ ms ∧ Vouches W.toDeps p jwks now idToken email

/-- Each provider that the service serves with is one of the environment. -/
theorem provider_traced {D : Deps}
    (h : Prog.Ran (main D toLowercase debug args env) boot (.serving b)) {p : OidcProvider}
    (hp : p ∈ b.oidcProviders) : ∃ name doc, p.issuer = doc.issuer ∧ p.jwksUri = doc.jwksUri ∧
      p.clientId = env.clientId name ∧ p.emailClaim = (env.var (emailClaimKey name)).getD "email" ∧
      (∃ config : OidcProviderConfig, env.var (discoveryKey name) = some config.discoveryUrl ∧
        ⟨.getDiscovery config.documentUrl, .ok doc⟩ ∈ boot) ∧
      ⟨.getJwks doc.jwksUri, .ok (b.served p)⟩ ∈ boot := by
  obtain ⟨hloaded, hfound⟩ := main_ran h
  obtain ⟨-, hdiscovered⟩ := fromEnv_loaded hloaded
  obtain ⟨⟨names, -, hnames, hconfigs⟩, -⟩ := discovered_named hdiscovered
  obtain ⟨f, hf, rfl, hserved⟩ := Booted.found hp
  obtain ⟨config, hconfig, doc, hdoc, hjwks, hprovider⟩ := found_config hfound hf
  rw [hconfigs] at hconfig
  obtain ⟨name, hname, rfl⟩ := List.mem_map.mp hconfig
  obtain ⟨url, hurl, -⟩ := (hnames name hname).discoveryUrl
  rw [hserved, hprovider]
  refine ⟨name, doc, rfl, rfl, rfl, rfl, ⟨_, ?_, hdoc⟩, hjwks⟩
  simp only [Env.provider, hurl, Option.getD_some]

/-- Behind every token stands the environment, if clients cannot sign: they present no refresh
token that they were not sent since the boot, and none is stored from before. Whatever a service
that has booted is asked, in any order and with any fetches, failures and expiries, a token it
hands out is signed under the secret of the environment, for an email that a login proved: with
an id_token that was not expired when it was checked, of the issuer that the document at a
discovery URL of the environment named at boot, signed under a key in a set from where that
document says. -/
theorem sessions_traced (W : ContractDeps) (toLowercase debug : String → String)
    (args : List String) (env : Env) (boot : List BootCalls.Event) (b : Booted)
    (hboot : Prog.Ran (main W.toDeps toLowercase debug args env) boot (.serving b))
    (clock ticks : ℕ) (bearers : KvKey → Option Bytes) (ms : List WholeLabel) (d : WholeState)
    (h : WholeRun W b.config.bearerSealKey b.oidcProviders b.config.state
      (Unforged W.toDeps b.config.state) (.booted clock bearers b.served b.lastRefresh ticks) ms d)
    (t : ℕ) (r : Response) (jwt : String) (hr : d.response t = some r) (hne : jwt ≠ "") :
    env.var "JWT_SECRET" = some b.config.state.jwt.secret ∧
    (r.Sets b.config.state.cookieConfig.accessCookieName jwt →
      ∃ email, TracedBack W env boot ms email ∧
        ∃ signed, jwt = b.config.state.jwt.accessToken W.toDeps email signed) ∧
    (r.Sets b.config.state.cookieConfig.refreshCookieName jwt →
      ∃ email, TracedBack W env boot ms email ∧
        ∃ id refreshed, jwt = b.config.state.jwt.refreshToken W.toDeps email id refreshed) := by
  obtain ⟨ls, c, hrun, hresponse, hvouched⟩ := WholeRun.verified_vouched h
  obtain ⟨haccess, hrefresh⟩ := Run.token_verified hrun ((hresponse t).trans hr) hne
  have htraced : ∀ email, VerifiedEmail ls email → TracedBack W env boot ms email := by
    intro email hverified
    obtain ⟨u, headers, grant, idToken, p, jwks, now, hq, hp, hserved, hnow, hvouches⟩ :=
      hvouched email hverified
    obtain ⟨name, doc, hissuer, huri, hclient, hemail, hdoc, hjwks⟩ := provider_traced hboot hp
    refine ⟨name, doc, jwks, p, u, headers, grant, idToken, now, ⟨hdoc, ?_⟩, hissuer, hclient,
      hemail, hq, hnow, hvouches⟩
    rcases hserved with rfl | hfetched
    · exact .inl hjwks
    · rw [huri] at hfetched
      exact .inr hfetched
  have hsecret := (loadSettings_ok (fromEnv_loaded (main_ran hboot).1).1).2.1
  refine ⟨hsecret, ?_, ?_⟩
  · intro hset
    obtain ⟨email, hverified, hjwt⟩ := haccess hset
    exact ⟨email, htraced email hverified, hjwt⟩
  · intro hset
    obtain ⟨email, hverified, hjwt⟩ := hrefresh hset
    exact ⟨email, htraced email hverified, hjwt⟩

end Trust

section Steps
variable {α : Type} {message : String} {p : BootAction (Except String α)} {a : α}
  {k : α → BootAction BootOutcome} {t₁ t₂ : List BootCalls.Event} {out : BootOutcome}

theorem boot_goes_on (hp : Prog.Ran p t₁ (.ok a)) (hk : Prog.Ran (k a) t₂ out) :
    Prog.Ran (p >>= fun r => orExit message r k) (t₁ ++ t₂) out :=
  Prog.ran_bind.mpr ⟨_, _, _, rfl, hp, hk⟩

end Steps

namespace Sample

/-- The sample provider as the environment declares it. -/
def declared : OidcProviderConfig := ⟨"EXAMPLE", "https://id.example.com/", "client", "email"⟩

def settings : Settings where
  jwtSecret := "secret"
  jwtIssuer := "svc-auth"
  accessTokenTtl := 900
  refreshTokenTtl := 604800
  secureCookies := true
  authCheckSilentRefresh := true
  natsUrl := "nats://localhost:4222"
  port := 8002
  environment := .Prod
  jwksRefreshCooldownSecs := 60
  bearerSealKey := sealKey

def environ : Env := writtenEnv settings [declared] (by decide)

def document : DiscoveryDocument := ⟨idp.issuer, idp.jwksUri⟩

def booted : Booted :=
  ⟨⟨settings, [declared.lower asciiLowercase]⟩, [⟨idp, ⟨[jwk]⟩, 0⟩], true⟩

def bootEvents : List BootCalls.Event :=
  [⟨.initMetrics, .ok ()⟩, ⟨.connect settings.natsUrl, .ok ()⟩, ⟨.openBearers, .ok ()⟩,
    ⟨.openTokens, .ok ()⟩, ⟨.openRevokedFamilies, .ok ()⟩, ⟨.buildClient, .ok ()⟩,
    ⟨.getDiscovery declared.documentUrl, .ok document⟩, ⟨.getJwks idp.jwksUri, .ok ⟨[jwk]⟩⟩,
    ⟨.instantNow, (0 : ℕ)⟩, ⟨.status, .ok ()⟩, ⟨.getProbe ⟨healthProbeKey⟩, .ok ()⟩,
    ⟨.bind settings.port, .ok ()⟩]

theorem booted_ran : Prog.Ran (main contract.toDeps asciiLowercase id [] environ) bootEvents
    (.serving booted) := by
  have hcomplete : ∀ p ∈ [declared], p.Complete := by
    intro p hp
    rw [List.mem_singleton.mp hp]
    exact ⟨by decide, by decide, by decide⟩
  have hloaded : fromEnv contract.toDeps asciiLowercase id environ = some (.ok booted.config) :=
    fromEnv_written _ hcomplete (by decide) (by simp)
  have hbearers : Prog.Ran (openBearerValidator contract.toDeps) [⟨.openBearers, .ok ()⟩]
      (.ok ()) := .call (.ret _)
  have htokens : Prog.Ran (openRefreshStore contract.toDeps)
      [⟨.openTokens, .ok ()⟩, ⟨.openRevokedFamilies, .ok ()⟩] (.ok ()) := .call (.call (.ret _))
  have hdiscovered : Prog.Ran (initProviders booted.config)
      [⟨.buildClient, .ok ()⟩, ⟨.getDiscovery declared.documentUrl, .ok document⟩,
        ⟨.getJwks idp.jwksUri, .ok ⟨[jwk]⟩⟩, ⟨.instantNow, (0 : ℕ)⟩] (.ok booted.providers) :=
    .call (.call (.call (.call (.ret _))))
  have hserving : Prog.Ran (bootWith contract.toDeps booted.config) (bootEvents.drop 1)
      (.serving booted) := by
    exact .call (boot_goes_on hbearers (boot_goes_on htokens (boot_goes_on hdiscovered
      (.call (.call (.call (.ret _)))))))
  rw [main, hloaded]
  exact .call hserving

/-- A session of the sample service, traced back. -/
theorem sessions_traced_sample : ∃ ms, ∃ email, TracedBack contract environ bootEvents ms email ∧
    ∃ signed, state.jwt.accessToken deps "user@example.com" moment =
      state.jwt.accessToken deps email signed := by
  have hserved : booted.served idp = ⟨[jwk]⟩ := by simp [Booted.served, booted]
  obtain ⟨d, r, hrun, hr, hset⟩ := whole_login booted.lastRefresh hserved
  have hne := state.jwt.accessToken_ne_empty deps "user@example.com" moment
  exact ⟨_, (sessions_traced contract asciiLowercase id [] environ bootEvents booted booted_ran moment 0
    (fun _ => none) _ d hrun 0 r _ hr hne).2.1 hset⟩

end Sample

end SvcAuth
