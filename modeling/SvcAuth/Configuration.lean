import SvcAuth.BearerContract
import SvcAuth.Handlers
import SvcAuth.Numerals
import SvcAuth.ProviderDiscovery

/-! The configuration of the service. It is read from the environment, every number with a
default behind it, and what can be read from some environment is said exactly. -/
namespace SvcAuth
open Numerals StandardBase64

/-- What an environment says besides the providers. -/
structure Settings extends AppConfig where
  natsUrl : String
  port : UInt16
  environment : Environment
  jwksRefreshCooldownSecs : UInt64
  bearerSealKey : BearerSealKey

/-- All of `config::AppConfig`. -/
structure ServiceConfig extends Settings where
  oidcProviders : List OidcProviderConfig

/-- `Display` of an environment. -/
def Environment.display : Environment → String
  | .Local => "local"
  | .Dev => "dev"
  | .Test => "test"
  | .Uat => "uat"
  | .Staging => "stg"
  | .Prod => "prod"

/-- `debug` is the `Debug` form of a string. -/
def Environment.parse (debug : String → String) (value : String) : Except String Environment :=
  match value with
  | "local" => .ok .Local
  | "dev" => .ok .Dev
  | "test" => .ok .Test
  | "uat" => .ok .Uat
  | "stg" => .ok .Staging
  | "prod" => .ok .Prod
  | other => .error ("ENVIRONMENT must be one of local|dev|test|uat|stg|prod, got " ++ debug other)

def jwksRefreshCooldownFloorSecs : UInt64 := 1

section Code
variable (D : Deps) (toLowercase debug : String → String) (env : Env)

def requiredEnv (name : String) : Except String String :=
  match env.var name with
  | some value => .ok value
  | none => .error (name ++ " is required")

def parseU64Env (name : String) (default : UInt64) : UInt64 :=
  ((env.var name).bind fun v => (readUnsigned (2 ^ 64) v).map UInt64.ofNat).getD default

def parseU16Env (name : String) (default : UInt16) : UInt16 :=
  ((env.var name).bind fun v => (readUnsigned (2 ^ 16) v).map UInt16.ofNat).getD default

def parseBoolValue (value : Option String) (default : Bool) : Bool :=
  (value.map fun v => v == "true" || v == "1").getD default

def parseBoolEnv (name : String) (default : Bool) : Bool := parseBoolValue (env.var name) default

def parseBearerSealKey : Except String BearerSealKey := do
  let encoded ← requiredEnv env "BEARER_SEAL_KEY"
  match D.standardDecode encoded with
  | none => .error "BEARER_SEAL_KEY must be valid base64"
  | some bytes =>
    (BearerSealKey.fromBytes bytes).mapError fun e => "BEARER_SEAL_KEY is invalid: " ++ e.toString

/-- `from_env` up to the providers. -/
def loadSettings : Except String Settings := do
  let natsUrl ← requiredEnv env "NATS_URL"
  let jwtSecret ← requiredEnv env "JWT_SECRET"
  let environment ← Environment.parse debug ((env.var "ENVIRONMENT").getD "local")
  let bearerSealKey ← parseBearerSealKey D env
  return {
    natsUrl
    jwtSecret
    jwtIssuer := (env.var "JWT_ISSUER").getD "svc-auth"
    accessTokenTtl := parseU64Env env "JWT_ACCESS_TOKEN_TTL" 900
    refreshTokenTtl := parseU64Env env "JWT_REFRESH_TOKEN_TTL" 604800
    port := parseU16Env env "PORT" 8002
    environment
    secureCookies := parseBoolEnv env "SECURE_COOKIES" true
    jwksRefreshCooldownSecs := max (parseU64Env env "JWKS_REFRESH_COOLDOWN_SECONDS" 60)
      jwksRefreshCooldownFloorSecs
    authCheckSilentRefresh := parseBoolEnv env "AUTH_CHECK_SILENT_REFRESH" true
    bearerSealKey }

/-- `AppConfig::from_env`. The outer `none` is a panic in the discovery of providers. -/
def fromEnv : Option (Except String ServiceConfig) :=
  match loadSettings D debug env with
  | .error e => some (.error e)
  | .ok settings =>
    (discoverOidcProviders toLowercase env settings.environment).map fun found =>
      found.map fun oidcProviders => ⟨settings, oidcProviders⟩

end Code

section Texts

@[simp] theorem parse_display (debug : String → String) (e : Environment) :
    Environment.parse debug e.display = .ok e := by
  cases e <;> rfl

/-- A flag as the environment spells it. -/
def flagText (b : Bool) : String := if b then "true" else "false"

theorem parseBoolValue_flagText (b default : Bool) :
    parseBoolValue (some (flagText b)) default = b := by
  cases b <;> rfl

theorem readU64_toString (n : UInt64) :
    (readUnsigned (2 ^ 64) (toString n.toNat)).map UInt64.ofNat = some n := by
  rw [readUnsigned_toString n.toNat_lt, Option.map_some, UInt64.ofNat_toNat]

theorem readU16_toString (n : UInt16) :
    (readUnsigned (2 ^ 16) (toString n.toNat)).map UInt16.ofNat = some n := by
  rw [readUnsigned_toString n.toNat_lt, Option.map_some, UInt16.ofNat_toNat]

end Texts

section Receivable

/-- A text that the environment of a process can hold. -/
def NulFree (s : String) : Prop := '\x00' ∉ s.toList

instance (s : String) : Decidable (NulFree s) := inferInstanceAs (Decidable ('\x00' ∉ s.toList))

/-- A process can receive the variables: a NUL ends every text, and the first `=` behind its
first character ends a name. -/
structure Env.Receivable (env : Env) : Prop where
  ended : ∀ v ∈ env.vars, NulFree v.1 ∧ NulFree v.2
  named : ∀ v ∈ env.vars, v.1 ≠ "" ∧ '=' ∉ v.1.toList.tail

theorem nulFree_append {s t : String} : NulFree (s ++ t) ↔ NulFree s ∧ NulFree t := by
  simp only [NulFree, String.toList_append, List.mem_append, not_or]

theorem nulFree_toString (n : ℕ) : NulFree (toString n) := by
  intro hmem
  have hlist : (toString n).toList = Nat.toDigits 10 n := Nat.toList_repr
  rw [hlist] at hmem
  exact absurd (Nat.isDigit_of_mem_toDigits (by decide) (by decide) hmem) (by decide)

theorem nulFree_encode (bs : List UInt8) : NulFree (encode bs) := by
  rw [NulFree, encode, String.toList_ofList]
  intro hmem
  exact absurd (encodeChars_chars bs _ hmem) (by decide)

theorem nulFree_display (e : Environment) : NulFree e.display := by
  cases e <;> decide

theorem nulFree_flagText (b : Bool) : NulFree (flagText b) := by
  cases b <;> decide

variable {env : Env}

theorem Env.Receivable.value {key value : String} (h : env.Receivable)
    (hvar : env.var key = some value) : NulFree value :=
  (h.ended _ (Env.var_iff.mp hvar)).2

theorem Env.Receivable.withDefault {default : String} (h : env.Receivable) (key : String)
    (hdefault : NulFree default) : NulFree ((env.var key).getD default) := by
  cases hvar : env.var key with
  | none => exact hdefault
  | some value => exact h.value hvar

end Receivable

section Keys

def settingsKeys : List String :=
  ["NATS_URL", "JWT_SECRET", "JWT_ISSUER", "JWT_ACCESS_TOKEN_TTL", "JWT_REFRESH_TOKEN_TTL", "PORT",
    "ENVIRONMENT", "SECURE_COOKIES", "JWKS_REFRESH_COOLDOWN_SECONDS", "AUTH_CHECK_SILENT_REFRESH",
    "BEARER_SEAL_KEY"]

def providerKeys (name : String) : List String :=
  [discoveryKey name, clientIdKey name, emailClaimKey name]

theorem providerKeys_last (name : String) :
    (discoveryKey name).toList.getLast? = some 'L' ∧ (clientIdKey name).toList.getLast? = some 'D' ∧
      (emailClaimKey name).toList.getLast? = some 'M' := by
  simp only [discoveryKey, clientIdKey, emailClaimKey, String.toList_append, List.getLast?_append]
  exact ⟨rfl, rfl, rfl⟩

theorem clientIdKey_injective : Function.Injective clientIdKey := by
  intro x y h
  exact (String.append_right_inj _).mp ((String.append_left_inj _).mp h)

theorem emailClaimKey_injective : Function.Injective emailClaimKey := by
  intro x y h
  exact (String.append_right_inj _).mp ((String.append_left_inj _).mp h)

theorem providerKeys_apart {name name' : String} :
    (discoveryKey name ≠ clientIdKey name') ∧ (discoveryKey name ≠ emailClaimKey name') ∧
      (clientIdKey name ≠ emailClaimKey name') := by
  have hfirst := providerKeys_last name
  have hsecond := providerKeys_last name'
  refine ⟨fun h => ?_, fun h => ?_, fun h => ?_⟩
  · rw [h, hsecond.2.1] at hfirst
    exact absurd hfirst.1 (by decide)
  · rw [h, hsecond.2.2] at hfirst
    exact absurd hfirst.1 (by decide)
  · rw [h, hsecond.2.2] at hfirst
    exact absurd hfirst.2.1 (by decide)

theorem providerKeys_nodup (name : String) : (providerKeys name).Nodup := by
  have hapart := @providerKeys_apart name name
  simp [providerKeys, hapart.1, hapart.2.1, hapart.2.2]

theorem providerKeys_unique {name name' key : String} (h : key ∈ providerKeys name)
    (h' : key ∈ providerKeys name') : name = name' := by
  have hapart := @providerKeys_apart name name'
  have hback := @providerKeys_apart name' name
  simp only [providerKeys, List.mem_cons, List.not_mem_nil, or_false] at h h'
  rcases h with rfl | rfl | rfl <;> rcases h' with h' | h' | h'
  · exact discoveryKey_injective h'
  · exact absurd h' hapart.1
  · exact absurd h' hapart.2.1
  · exact absurd h'.symm hback.1
  · exact clientIdKey_injective h'
  · exact absurd h' hapart.2.2
  · exact absurd h'.symm hback.2.1
  · exact absurd h'.symm hback.2.2
  · exact emailClaimKey_injective h'

theorem providerKeys_begin {name key : String} (h : key ∈ providerKeys name) :
    discoveryPrefix.toList <+: key.toList := by
  simp only [providerKeys, List.mem_cons, List.not_mem_nil, or_false] at h
  rcases h with rfl | rfl | rfl
  all_goals
    simp only [discoveryKey, clientIdKey, emailClaimKey, String.toList_append, List.append_assoc]
    exact List.prefix_append _ _

theorem settingsKeys_apart {name key : String} (h : key ∈ providerKeys name) :
    key ∉ settingsKeys := by
  have hnone : ∀ key ∈ settingsKeys, ¬ discoveryPrefix.toList <+: key.toList := by decide
  exact fun hmem => hnone key hmem (providerKeys_begin h)

theorem providerKeys_named {name key : String} (hname : NulFree name ∧ '=' ∉ name.toList)
    (h : key ∈ providerKeys name) : NulFree key ∧ key ≠ "" ∧ '=' ∉ key.toList.tail := by
  obtain ⟨hended, hname⟩ := hname
  rw [NulFree] at hended
  simp only [providerKeys, List.mem_cons, List.not_mem_nil, or_false] at h
  rcases h with rfl | rfl | rfl
  all_goals
    simp [discoveryKey, clientIdKey, emailClaimKey, discoveryPrefix, discoverySuffix, NulFree,
      hended, hname]

theorem isDiscoveryKey_last {key : String} (h : isDiscoveryKey key = true) :
    key.toList.getLast? = some 'L' := by
  rw [isDiscoveryKey, Bool.and_eq_true, List.isSuffixOf_iff_suffix] at h
  obtain ⟨front, hkey⟩ := h.2
  rw [← hkey]
  simp [discoverySuffix]

end Keys

section Written

/-- The environment that says these settings. -/
def Settings.vars (s : Settings) : List (String × String) :=
  [("NATS_URL", s.natsUrl), ("JWT_SECRET", s.jwtSecret), ("JWT_ISSUER", s.jwtIssuer),
    ("JWT_ACCESS_TOKEN_TTL", toString s.accessTokenTtl.toNat),
    ("JWT_REFRESH_TOKEN_TTL", toString s.refreshTokenTtl.toNat),
    ("PORT", toString s.port.toNat), ("ENVIRONMENT", s.environment.display),
    ("SECURE_COOKIES", flagText s.secureCookies),
    ("JWKS_REFRESH_COOLDOWN_SECONDS", toString s.jwksRefreshCooldownSecs.toNat),
    ("AUTH_CHECK_SILENT_REFRESH", flagText s.authCheckSilentRefresh),
    ("BEARER_SEAL_KEY", encode s.bearerSealKey.bytes)]

def OidcProviderConfig.vars (p : OidcProviderConfig) : List (String × String) :=
  [(discoveryKey p.name, p.discoveryUrl), (clientIdKey p.name, p.clientId),
    (emailClaimKey p.name, p.emailClaim)]

/-- A provider that the discovery finds under the name it is written with. -/
structure OidcProviderConfig.Complete (p : OidcProviderConfig) : Prop where
  name : p.name ≠ ""
  discoveryUrl : p.discoveryUrl ≠ ""
  clientId : p.clientId ≠ ""

/-- A provider whose variables a process can receive. -/
structure OidcProviderConfig.Receivable (p : OidcProviderConfig) : Prop where
  name : NulFree p.name ∧ '=' ∉ p.name.toList
  discoveryUrl : NulFree p.discoveryUrl
  clientId : NulFree p.clientId
  emailClaim : NulFree p.emailClaim

/-- What the settings hold of free text a process can receive. -/
structure Settings.Receivable (s : Settings) : Prop where
  natsUrl : NulFree s.natsUrl
  jwtSecret : NulFree s.jwtSecret
  jwtIssuer : NulFree s.jwtIssuer

theorem written_keys (s : Settings) (ps : List OidcProviderConfig) :
    (s.vars ++ ps.flatMap OidcProviderConfig.vars).map Prod.fst =
      settingsKeys ++ (ps.map OidcProviderConfig.name).flatMap providerKeys := by
  rw [List.map_append, List.map_flatMap, List.flatMap_map]
  rfl

theorem written_nodup (s : Settings) {ps : List OidcProviderConfig}
    (h : (ps.map OidcProviderConfig.name).Nodup) :
    ((s.vars ++ ps.flatMap OidcProviderConfig.vars).map Prod.fst).Nodup := by
  rw [written_keys, List.nodup_append]
  refine ⟨by decide, ?_, ?_⟩
  · rw [List.nodup_flatMap]
    refine ⟨fun name _ => providerKeys_nodup name, h.imp ?_⟩
    intro name name' hne key hkey hkey'
    exact hne (providerKeys_unique hkey hkey')
  · rintro key hkey key' hkey' rfl
    obtain ⟨name, -, hname⟩ := List.mem_flatMap.mp hkey'
    exact settingsKeys_apart hname hkey

/-- The settings and these providers, written down. -/
def writtenEnv (s : Settings) (ps : List OidcProviderConfig)
    (h : (ps.map OidcProviderConfig.name).Nodup) : Env :=
  ⟨s.vars ++ ps.flatMap OidcProviderConfig.vars, written_nodup s h⟩

variable {D : Deps} {toLowercase debug : String → String} {s : Settings}
  {ps : List OidcProviderConfig}

theorem Settings.Receivable.values (h : s.Receivable) : ∀ v ∈ s.vars, NulFree v.2 := by
  simp only [Settings.vars, List.forall_mem_cons, List.not_mem_nil, false_imp_iff, implies_true,
    and_true]
  exact ⟨h.natsUrl, h.jwtSecret, h.jwtIssuer, nulFree_toString _, nulFree_toString _,
    nulFree_toString _, nulFree_display _, nulFree_flagText _, nulFree_toString _,
    nulFree_flagText _, nulFree_encode _⟩

theorem OidcProviderConfig.Receivable.values {p : OidcProviderConfig} (h : p.Receivable) :
    ∀ v ∈ p.vars, NulFree v.2 := by
  simp only [OidcProviderConfig.vars, List.forall_mem_cons, List.not_mem_nil, false_imp_iff,
    implies_true, and_true]
  exact ⟨h.discoveryUrl, h.clientId, h.emailClaim⟩

theorem written_named {key : String} (hps : ∀ p ∈ ps, p.Receivable)
    (h : key ∈ settingsKeys ++ (ps.map OidcProviderConfig.name).flatMap providerKeys) :
    NulFree key ∧ key ≠ "" ∧ '=' ∉ key.toList.tail := by
  rcases List.mem_append.mp h with hkey | hkey
  · have hall : ∀ key ∈ settingsKeys, NulFree key ∧ key ≠ "" ∧ '=' ∉ key.toList.tail := by decide
    exact hall key hkey
  · obtain ⟨name, hname, hkey⟩ := List.mem_flatMap.mp hkey
    obtain ⟨p, hp, rfl⟩ := List.mem_map.mp hname
    exact providerKeys_named (hps p hp).name hkey

theorem written_receivable (h : (ps.map OidcProviderConfig.name).Nodup) (hs : s.Receivable)
    (hps : ∀ p ∈ ps, p.Receivable) : (writtenEnv s ps h).Receivable := by
  have hnamed : ∀ v ∈ (writtenEnv s ps h).vars, NulFree v.1 ∧ v.1 ≠ "" ∧ '=' ∉ v.1.toList.tail := by
    intro v hv
    have hkey := List.mem_map_of_mem (f := Prod.fst) hv
    exact written_named hps (written_keys s ps ▸ hkey)
  refine ⟨fun v hv => ⟨(hnamed v hv).1, ?_⟩, fun v hv => (hnamed v hv).2⟩
  rcases List.mem_append.mp hv with hv | hv
  · exact hs.values v hv
  · obtain ⟨p, hp, hv⟩ := List.mem_flatMap.mp hv
    exact (hps p hp).values v hv

theorem written_var (h : (ps.map OidcProviderConfig.name).Nodup) {v : String × String}
    (hv : v ∈ s.vars) : (writtenEnv s ps h).var v.1 = some v.2 :=
  Env.var_iff.mpr (List.mem_append_left _ hv)

theorem fromBytes_bytes (key : BearerSealKey) : BearerSealKey.fromBytes key.bytes = .ok key := by
  rw [BearerSealKey.fromBytes, dif_pos key.size]

theorem le_floor (n : UInt64) :
    jwksRefreshCooldownFloorSecs ≤ max n jwksRefreshCooldownFloorSecs := by
  by_cases h : n ≤ jwksRefreshCooldownFloorSecs
  · rw [show max n jwksRefreshCooldownFloorSecs = _ from if_pos h]
    exact UInt64.le_refl _
  · rw [show max n jwksRefreshCooldownFloorSecs = _ from if_neg h]
    exact (UInt64.le_total _ _).resolve_right h

theorem floor_kept {n : UInt64} (h : jwksRefreshCooldownFloorSecs ≤ n) :
    max n jwksRefreshCooldownFloorSecs = n := by
  by_cases hn : n ≤ jwksRefreshCooldownFloorSecs
  · rw [show max n jwksRefreshCooldownFloorSecs = _ from if_pos hn]
    exact UInt64.le_antisymm h hn
  · exact if_neg hn

theorem written_settings (h : (ps.map OidcProviderConfig.name).Nodup)
    (hcooldown : jwksRefreshCooldownFloorSecs ≤ s.jwksRefreshCooldownSecs) :
    loadSettings D debug (writtenEnv s ps h) = .ok s := by
  have hall : ∀ v ∈ s.vars, (writtenEnv s ps h).var v.1 = some v.2 :=
    fun v hv => written_var h hv
  simp only [Settings.vars, List.forall_mem_cons, List.not_mem_nil, false_imp_iff, implies_true,
    and_true] at hall
  obtain ⟨hnats, hsecret, hissuer, haccess, hrefresh, hport, henvironment, hsecure, hjwks, hsilent,
    hseal⟩ := hall
  have hkey : parseBearerSealKey D (writtenEnv s ps h) = .ok s.bearerSealKey := by
    simp only [parseBearerSealKey, requiredEnv, hseal, bind, Except.bind, Deps.standardDecode_encode,
      fromBytes_bytes, Except.mapError]
  have hfloor := floor_kept hcooldown
  simp only [loadSettings, requiredEnv, parseU64Env, parseU16Env, parseBoolEnv, hnats, hsecret,
    hissuer, haccess, hrefresh, hport, henvironment, hsecure, hjwks, hsilent, hkey,
    Option.bind_some, Option.getD_some, readU64_toString, readU16_toString, parseBoolValue_flagText,
    parse_display, hfloor]
  rfl

/-- The provider as the service knows it. -/
def OidcProviderConfig.lower (toLowercase : String → String) (p : OidcProviderConfig) :
    OidcProviderConfig :=
  { p with name := toLowercase p.name }

section Loop
variable {env : Env} {vars rest : List (String × String)} {found : List OidcProviderConfig}

theorem plain_passes {v : String × String} (h : isDiscoveryKey v.1 = false) :
    discoverVar toLowercase env v = some (.ok none) := by
  obtain ⟨key, url⟩ := v
  simp only at h
  simp [discoverVar, h]

theorem loop_passes (h : ∀ v ∈ vars, isDiscoveryKey v.1 = false) :
    discoverLoop toLowercase env (vars ++ rest) found = discoverLoop toLowercase env rest found := by
  induction vars with
  | nil => rfl
  | cons v vars ih =>
    rw [List.forall_mem_cons] at h
    rw [List.cons_append, discoverLoop, plain_passes h.1]
    simp only [Option.toList_none, List.append_nil]
    exact ih h.2

/-- The three variables of a provider make the loop find it. -/
theorem loop_provider {p : OidcProviderConfig} (hp : p.Complete)
    (hclient : env.var (clientIdKey p.name) = some p.clientId)
    (hemail : env.var (emailClaimKey p.name) = some p.emailClaim) :
    discoverLoop toLowercase env (p.vars ++ rest) found =
      discoverLoop toLowercase env rest (found ++ [p.lower toLowercase]) := by
  have hdeclares : Env.Declares p.name (discoveryKey p.name, p.discoveryUrl) :=
    ⟨hp.name, rfl, hp.discoveryUrl⟩
  have hid : env.clientId p.name = p.clientId := by rw [Env.clientId, hclient, Option.getD_some]
  have hfound : discoverVar toLowercase env (discoveryKey p.name, p.discoveryUrl) =
      some (.ok (some (p.lower toLowercase))) := by
    rw [declares_provider hdeclares, if_neg (hid ▸ hp.clientId), Env.provider, hid, hemail]
    rfl
  have hplain : ∀ v ∈ [(clientIdKey p.name, p.clientId), (emailClaimKey p.name, p.emailClaim)],
      isDiscoveryKey v.1 = false := by
    have hlast := providerKeys_last p.name
    simp only [List.mem_cons, List.not_mem_nil, or_false, forall_eq_or_imp, forall_eq,
      ← Bool.not_eq_true]
    refine ⟨fun hkey => ?_, fun hkey => ?_⟩
    · rw [isDiscoveryKey_last hkey] at hlast
      exact absurd hlast.2.1 (by decide)
    · rw [isDiscoveryKey_last hkey] at hlast
      exact absurd hlast.2.2 (by decide)
  rw [OidcProviderConfig.vars, List.cons_append, discoverLoop, hfound]
  exact loop_passes hplain

theorem loop_providers (h : ∀ p ∈ ps, p.Complete ∧
    env.var (clientIdKey p.name) = some p.clientId ∧
    env.var (emailClaimKey p.name) = some p.emailClaim) :
    discoverLoop toLowercase env (ps.flatMap OidcProviderConfig.vars) found =
      some (.ok (found ++ ps.map (OidcProviderConfig.lower toLowercase))) := by
  induction ps generalizing found with
  | nil => simp [discoverLoop]
  | cons p ps ih =>
    rw [List.forall_mem_cons] at h
    obtain ⟨⟨hp, hclient, hemail⟩, hrest⟩ := h
    rw [List.flatMap_cons, loop_provider hp hclient hemail, ih hrest, List.map_cons,
      List.append_assoc]
    rfl

end Loop

/-- The providers are found in the order in which they are written. -/
theorem written_providers (h : (ps.map OidcProviderConfig.name).Nodup)
    (hcomplete : ∀ p ∈ ps, p.Complete) (hremote : ps = [] → s.environment = .Local) :
    discoverOidcProviders toLowercase (writtenEnv s ps h) s.environment =
      some (.ok (ps.map (OidcProviderConfig.lower toLowercase))) := by
  have hvar : ∀ p ∈ ps, p.Complete ∧
      (writtenEnv s ps h).var (clientIdKey p.name) = some p.clientId ∧
      (writtenEnv s ps h).var (emailClaimKey p.name) = some p.emailClaim := by
    intro p hp
    have hmem : ∀ v ∈ p.vars, (writtenEnv s ps h).var v.1 = some v.2 := fun v hv =>
      Env.var_iff.mpr (List.mem_append_right _ (List.mem_flatMap.mpr ⟨p, hp, hv⟩))
    exact ⟨hcomplete p hp, hmem (_, _) (.tail _ (.head _)),
      hmem (_, _) (.tail _ (.tail _ (.head _)))⟩
  have hplain : ∀ v ∈ s.vars, isDiscoveryKey v.1 = false := by
    have hkeys : ∀ key ∈ settingsKeys, isDiscoveryKey key = false := by decide
    intro v hv
    exact hkeys v.1 (List.mem_map_of_mem hv)
  have hloop : discoverLoop toLowercase (writtenEnv s ps h) (writtenEnv s ps h).vars [] =
      some (.ok (ps.map (OidcProviderConfig.lower toLowercase))) :=
    (loop_passes hplain).trans (loop_providers hvar)
  rw [discoverOidcProviders, hloop]
  cases ps with
  | nil => simp [hremote rfl]
  | cons p ps => rfl

end Written

section Loadable
variable {D : Deps} {toLowercase debug : String → String}

/-- What the service can be configured to: any settings with a cooldown of a second at
least, and providers that are named apart, with nothing empty; none of them only locally.
The texts are those that a variable can hold. -/
structure Loadable (toLowercase : String → String) (c : ServiceConfig) : Prop where
  texts : c.toSettings.Receivable
  cooldown : jwksRefreshCooldownFloorSecs ≤ c.jwksRefreshCooldownSecs
  declared : ∃ ps : List OidcProviderConfig, (∀ p ∈ ps, p.Complete ∧ p.Receivable) ∧
    (ps.map OidcProviderConfig.name).Nodup ∧ c.oidcProviders = ps.map (.lower toLowercase)
  remote : c.oidcProviders = [] → c.environment = .Local

theorem requiredEnv_ok {env : Env} {name value : String} (h : requiredEnv env name = .ok value) :
    env.var name = some value := by
  cases hvar : env.var name with
  | none => simp [requiredEnv, hvar] at h
  | some v => simpa [requiredEnv, hvar] using h

/-- The texts are read from the environment. -/
theorem loadSettings_ok {env : Env} {s : Settings} (h : loadSettings D debug env = .ok s) :
    env.var "NATS_URL" = some s.natsUrl ∧ env.var "JWT_SECRET" = some s.jwtSecret ∧
      s.jwtIssuer = (env.var "JWT_ISSUER").getD "svc-auth" ∧
      parseBearerSealKey D env = .ok s.bearerSealKey ∧
      jwksRefreshCooldownFloorSecs ≤ s.jwksRefreshCooldownSecs := by
  simp only [loadSettings, bind, Except.bind] at h
  split at h
  · cases h
  · rename_i natsUrl hnats
    split at h
    · cases h
    · rename_i secret hsecret
      split at h
      · cases h
      · split at h
        · cases h
        · rename_i key hkey
          cases h
          exact ⟨requiredEnv_ok hnats, requiredEnv_ok hsecret, rfl, hkey, le_floor _⟩

theorem loadSettings_receivable {env : Env} {s : Settings} (henv : env.Receivable)
    (h : loadSettings D debug env = .ok s) : s.Receivable := by
  obtain ⟨hnats, hsecret, hissuer, -⟩ := loadSettings_ok h
  exact ⟨henv.value hnats, henv.value hsecret, hissuer ▸ henv.withDefault _ (by decide)⟩

/-- The provider of this name is declared, and complete. -/
structure Env.Names (env : Env) (name : String) : Prop where
  named : name ≠ ""
  discoveryUrl : ∃ url, env.var (discoveryKey name) = some url ∧ url ≠ ""
  clientId : env.clientId name ≠ ""

theorem Env.Names.complete {env : Env} {name : String} (h : env.Names name) :
    (env.provider id name).Complete := by
  obtain ⟨url, hurl, hne⟩ := h.discoveryUrl
  refine ⟨h.named, ?_, h.clientId⟩
  simpa only [Env.provider, hurl, Option.getD_some] using hne

theorem Env.Names.receivable {env : Env} {name : String} (h : env.Names name)
    (henv : env.Receivable) : (env.provider id name).Receivable := by
  obtain ⟨url, hurl, -⟩ := h.discoveryUrl
  have hmem : (discoveryKey name, url) ∈ env.vars := Env.var_iff.mp hurl
  have hended : NulFree (discoveryKey name) := (henv.ended _ hmem).1
  have hnamed : '=' ∉ (discoveryKey name).toList.tail := (henv.named _ hmem).2
  rw [discoveryKey, nulFree_append, nulFree_append] at hended
  refine ⟨⟨hended.1.2, fun hequals => hnamed ?_⟩, henv.withDefault _ (by decide),
    henv.withDefault _ (by decide), henv.withDefault _ (by decide)⟩
  simp only [id_eq, Env.provider] at hequals
  simp [discoveryKey, discoveryPrefix, hequals]

/-- What the discovery finds is declared, each provider once. -/
theorem discovered_named {env : Env} {environment : Environment} {found : List OidcProviderConfig}
    (h : discoverOidcProviders toLowercase env environment = some (.ok found)) :
    (∃ names : List String, names.Nodup ∧ (∀ name ∈ names, env.Names name) ∧
      found = names.map (env.provider toLowercase)) ∧ (found = [] → environment = .Local) := by
  have hsafe : env.Safe env.vars := by
    by_contra hnot
    rw [discovers_panics hnot] at h
    cases h
  have hlacks : ∀ v ∈ env.vars, ¬ env.Lacks v := by
    intro v hv hlack
    obtain ⟨e, he⟩ : ∃ e, discoverOidcProviders toLowercase env environment = some (.error e) :=
      discovers_refuses hsafe ⟨v, hv, hlack⟩
    rw [h] at he
    cases he
  obtain ⟨names, hnodup, hnames, hloop⟩ := loop_exact toLowercase hsafe hlacks
  rw [discoverOidcProviders, hloop] at h
  simp only at h
  split at h
  · cases h
  · rename_i hrequired
    cases h
    refine ⟨⟨names, hnodup, ?_, rfl⟩, ?_⟩
    · intro name hname
      obtain ⟨v, hv, hdeclares⟩ := (hnames name).mp hname
      refine ⟨hdeclares.1, ⟨v.2, ?_, hdeclares.2.2⟩,
        fun hmissing => hlacks v hv ⟨name, hdeclares, hmissing⟩⟩
      rw [← hdeclares.2.1]
      exact Env.var_iff.mpr hv
    · intro hnone
      simp only [hnone, List.isEmpty_nil, Bool.true_and, bne_iff_ne, ne_eq, not_not] at hrequired
      exact hrequired

/-- A configuration that loads has the settings and the providers of the environment. -/
theorem fromEnv_loaded {env : Env} {c : ServiceConfig}
    (h : fromEnv D toLowercase debug env = some (.ok c)) :
    loadSettings D debug env = .ok c.toSettings ∧
      discoverOidcProviders toLowercase env c.environment = some (.ok c.oidcProviders) := by
  unfold fromEnv at h
  cases hsettings : loadSettings D debug env with
  | error e =>
    rw [hsettings] at h
    cases h
  | ok s =>
    rw [hsettings] at h
    simp only at h
    cases hfound : discoverOidcProviders toLowercase env s.environment with
    | none =>
      rw [hfound] at h
      cases h
    | some found =>
      rw [hfound] at h
      cases found with
      | error e => cases h
      | ok found =>
        cases h
        exact ⟨rfl, hfound⟩

/-- What is written down loads. -/
theorem fromEnv_written {s : Settings} {ps : List OidcProviderConfig}
    (h : (ps.map OidcProviderConfig.name).Nodup) (hcomplete : ∀ p ∈ ps, p.Complete)
    (hcooldown : jwksRefreshCooldownFloorSecs ≤ s.jwksRefreshCooldownSecs)
    (hremote : ps = [] → s.environment = .Local) :
    fromEnv D toLowercase debug (writtenEnv s ps h) =
      some (.ok ⟨s, ps.map (OidcProviderConfig.lower toLowercase)⟩) := by
  rw [fromEnv, written_settings h hcooldown]
  simp only [written_providers h hcomplete hremote, Option.map_some, Except.map]

/-- A configuration can be loaded from what some process receives exactly if it is one of
these: every number, key, flag and provider can be written down, and is read back as it was. -/
theorem loadable_iff (D : Deps) (toLowercase debug : String → String) (c : ServiceConfig) :
    (∃ env : Env, env.Receivable ∧ fromEnv D toLowercase debug env = some (.ok c)) ↔
      Loadable toLowercase c := by
  constructor
  · rintro ⟨env, henv, h⟩
    obtain ⟨hsettings, hfound⟩ := fromEnv_loaded h
    obtain ⟨⟨names, hnodup, hnames, hproviders⟩, hremote⟩ := discovered_named hfound
    refine ⟨loadSettings_receivable henv hsettings, (loadSettings_ok hsettings).2.2.2.2,
      ⟨names.map (env.provider id), ?_, ?_, ?_⟩, hremote⟩
    · intro p hp
      obtain ⟨name, hname, rfl⟩ := List.mem_map.mp hp
      exact ⟨(hnames name hname).complete, (hnames name hname).receivable henv⟩
    · simpa [List.map_map, Function.comp_def, Env.provider] using hnodup
    · simp [hproviders, List.map_map, Function.comp_def, OidcProviderConfig.lower, Env.provider]
  · rintro ⟨htexts, hcooldown, ⟨ps, hps, hnodup, hproviders⟩, hremote⟩
    have hcomplete : ∀ p ∈ ps, p.Complete := fun p hp => (hps p hp).1
    have hreceivable : ∀ p ∈ ps, p.Receivable := fun p hp => (hps p hp).2
    refine ⟨writtenEnv c.toSettings ps hnodup, written_receivable hnodup htexts hreceivable, ?_⟩
    have hnone : ps = [] → c.environment = .Local := by
      rintro rfl
      exact hremote hproviders
    rw [fromEnv_written hnodup hcomplete hcooldown hnone, ← hproviders]

end Loadable

end SvcAuth
