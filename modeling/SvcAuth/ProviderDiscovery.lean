import Mathlib.Data.List.Infix
import Mathlib.Data.List.Nodup
import Mathlib.Data.String.Basic

/-! The discovery of OIDC providers from the environment. A provider has a name, which
stands in the middle of the names of its variables; the code takes it out by byte offsets,
and the two texts around it can overlap. -/
namespace SvcAuth

inductive Environment
  | Local
  | Dev
  | Test
  | Uat
  | Staging
  | Prod
  deriving DecidableEq, Repr

structure OidcProviderConfig where
  name : String
  discoveryUrl : String
  clientId : String
  emailClaim : String
  deriving DecidableEq, Repr

/-- The variables of the process, in the order in which it iterates over them. -/
structure Env where
  vars : List (String × String)
  distinct : (vars.map Prod.fst).Nodup

def Env.var (env : Env) (key : String) : Option String := env.vars.lookup key

/-- The bytes of `s` from `b` to `e`. A range that is no range of `s`, or that cuts a
character, is a panic. -/
def byteSlice (s : String) (b e : ℕ) : Option String :=
  if h : b ≤ e ∧ String.Pos.Raw.IsValid s ⟨b⟩ ∧ String.Pos.Raw.IsValid s ⟨e⟩ then
    some (s.extract ⟨⟨b⟩, h.2.1⟩ ⟨⟨e⟩, h.2.2⟩)
  else none

def discoveryPrefix : String := "OIDC_"

def discoverySuffix : String := "_DISCOVERY_URL"

def clientIdKey (name : String) : String := "OIDC_" ++ name ++ "_CLIENT_ID"

def emailClaimKey (name : String) : String := "OIDC_" ++ name ++ "_EMAIL_CLAIM"

/-- The name begins and ends like that of a discovery URL. -/
def isDiscoveryKey (key : String) : Bool :=
  discoveryPrefix.toList.isPrefixOf key.toList && discoverySuffix.toList.isSuffixOf key.toList

/-- `&key[prefix.len()..key.len() - suffix.len()]`. -/
def keyMiddle (key : String) : Option String :=
  byteSlice key discoveryPrefix.utf8ByteSize (key.utf8ByteSize - discoverySuffix.utf8ByteSize)

section Code
variable (toLowercase : String → String) (env : Env)

/-- The body of the loop at one variable: a panic, an error, or the provider that is pushed. -/
def discoverVar : String × String → Option (Except String (Option OidcProviderConfig))
  | (key, discoveryUrl) =>
    if !isDiscoveryKey key then
      some (.ok none)
    else if discoveryUrl.isEmpty then
      some (.ok none)
    else
      match keyMiddle key with
      | none => none
      | some name =>
        if name.isEmpty then
          some (.ok none)
        else
          let clientId := (env.var (clientIdKey name)).getD ""
          if clientId.isEmpty then
            some (.error (clientIdKey name ++ " is required when " ++ key ++ " is set"))
          else
            let emailClaim := (env.var (emailClaimKey name)).getD "email"
            some (.ok (some ⟨toLowercase name, discoveryUrl, clientId, emailClaim⟩))

/-- The loop over the variables that are left, with the providers found so far. -/
def discoverLoop : List (String × String) → List OidcProviderConfig →
    Option (Except String (List OidcProviderConfig))
  | [], providers => some (.ok providers)
  | v :: vars, providers =>
    match discoverVar toLowercase env v with
    | none => none
    | some (.error e) => some (.error e)
    | some (.ok found) => discoverLoop vars (providers ++ found.toList)

/-- The providers that are configured. The outer `none` is a panic. -/
def discoverOidcProviders (environment : Environment) :
    Option (Except String (List OidcProviderConfig)) :=
  match discoverLoop toLowercase env env.vars [] with
  | none => none
  | some (.error e) => some (.error e)
  | some (.ok providers) =>
    if providers.isEmpty && environment != .Local then
      some (.error ("at least one OIDC provider (OIDC_*_DISCOVERY_URL) is required in " ++
        "non-local environments"))
    else some (.ok providers)

end Code

def discoveryKey (name : String) : String := discoveryPrefix ++ name ++ discoverySuffix

/-- The one name in which the two texts overlap. -/
def overlappingKey : String := "OIDC_DISCOVERY_URL"

section Keys

theorem byteSlice_middle (a b c : String) :
    byteSlice (a ++ b ++ c) a.utf8ByteSize (a ++ b).utf8ByteSize = some b := by
  have hstart : String.Pos.Raw.IsValid (a ++ b ++ c) ⟨a.utf8ByteSize⟩ :=
    String.Pos.Raw.isValid_iff_exists_append.mpr ⟨a, b ++ c, String.append_assoc, rfl⟩
  have hend : String.Pos.Raw.IsValid (a ++ b ++ c) ⟨(a ++ b).utf8ByteSize⟩ :=
    String.Pos.Raw.isValid_iff_exists_append.mpr ⟨a ++ b, c, rfl, rfl⟩
  have hle : a.utf8ByteSize ≤ (a ++ b).utf8ByteSize := by simp
  rw [byteSlice, dif_pos ⟨hle, hstart, hend⟩, Option.some_inj, ← String.toByteArray_inj]
  simp only [String.toByteArray_extract, String.toByteArray_append, ← String.size_toByteArray,
    ByteArray.size_append]
  rw [ByteArray.extract_append, ByteArray.extract_append_eq_right rfl rfl]
  simp

theorem discoveryKey_injective : Function.Injective discoveryKey := by
  intro x y h
  exact (String.append_right_inj _).mp ((String.append_left_inj _).mp h)

theorem shaped_cases {key : String} (h : isDiscoveryKey key = true) :
    key = overlappingKey ∨ ∃ name, key = discoveryKey name := by
  rw [isDiscoveryKey, Bool.and_eq_true, List.isPrefixOf_iff_prefix,
    List.isSuffixOf_iff_suffix] at h
  obtain ⟨⟨r, hr⟩, l, hl⟩ := h
  rcases List.append_eq_append_iff.mp (hr.trans hl.symm) with ⟨m, hm, -⟩ | ⟨c, hc, hs⟩
  · refine .inr ⟨.ofList m, ?_⟩
    rw [← String.toList_inj, ← hl, hm]
    simp [discoveryKey]
  · -- a prefix of the suffix that ends the prefix is `_` or nothing
    have hoverlap : c = [] ∨ c = ['_'] := by
      have hlast : c <:+ discoveryPrefix.toList := ⟨l, hc.symm⟩
      have hfirst : c <+: discoverySuffix.toList := ⟨r, hs.symm⟩
      rw [← List.mem_tails] at hlast
      have hall : ∀ d ∈ discoveryPrefix.toList.tails, d <+: discoverySuffix.toList →
          d = [] ∨ d = ['_'] := by decide
      exact hall c hlast hfirst
    rcases hoverlap with rfl | rfl
    · refine .inr ⟨"", ?_⟩
      rw [← String.toList_inj, ← hl, ← List.append_nil l, ← hc]
      rfl
    · left
      have hl' : l = "OIDC".toList := List.append_cancel_right (hc.symm.trans rfl)
      rw [← String.toList_inj, ← hl, hl']
      rfl

theorem isDiscoveryKey_discoveryKey (name : String) : isDiscoveryKey (discoveryKey name) = true := by
  rw [isDiscoveryKey, Bool.and_eq_true, List.isPrefixOf_iff_prefix, List.isSuffixOf_iff_suffix,
    discoveryKey, String.toList_append, String.toList_append]
  refine ⟨?_, List.suffix_append _ _⟩
  rw [List.append_assoc]
  exact List.prefix_append _ _

theorem overlappingKey_middle : byteSlice overlappingKey discoveryPrefix.utf8ByteSize
    (overlappingKey.utf8ByteSize - discoverySuffix.utf8ByteSize) = none := by
  decide

theorem discoveryKey_middle (name : String) :
    byteSlice (discoveryKey name) discoveryPrefix.utf8ByteSize
      ((discoveryKey name).utf8ByteSize - discoverySuffix.utf8ByteSize) = some name := by
  have hlength : (discoveryKey name).utf8ByteSize - discoverySuffix.utf8ByteSize =
      (discoveryPrefix ++ name).utf8ByteSize := by
    rw [discoveryKey, String.utf8ByteSize_append, Nat.add_sub_cancel]
  rw [hlength]
  exact byteSlice_middle _ _ _

end Keys

namespace Env

/-- The variable sets a discovery URL for a provider of this name. -/
def Declares (name : String) (v : String × String) : Prop :=
  name ≠ "" ∧ v.1 = discoveryKey name ∧ v.2 ≠ ""

/-- The variable is set, and its name has no middle. -/
def Overlaps (v : String × String) : Prop := v.1 = overlappingKey ∧ v.2 ≠ ""

def clientId (env : Env) (name : String) : String := (env.var (clientIdKey name)).getD ""

/-- The provider that the variables with this name in them describe. -/
def provider (toLowercase : String → String) (env : Env) (name : String) : OidcProviderConfig where
  name := toLowercase name
  discoveryUrl := (env.var (discoveryKey name)).getD ""
  clientId := env.clientId name
  emailClaim := (env.var (emailClaimKey name)).getD "email"

/-- The variable declares a provider whose client id is missing or empty. -/
def Lacks (env : Env) (v : String × String) : Prop :=
  ∃ name, Declares name v ∧ env.clientId name = ""

/-- Whatever overlaps stands behind a variable that ends the loop with an error. -/
def Safe (env : Env) (vars : List (String × String)) : Prop :=
  ∀ before v after, vars = before ++ v :: after → Overlaps v → ∃ u ∈ before, env.Lacks u

end Env

section Loop
open Env
variable {toLowercase : String → String} {env : Env} {vars : List (String × String)}
  {v : String × String} {ps : List OidcProviderConfig}

theorem Env.Declares.name_unique {name name' : String} (h : Declares name v)
    (h' : Declares name' v) : name = name' :=
  discoveryKey_injective (h.2.1.symm.trans h'.2.1)

theorem overlaps_panics (h : Overlaps v) : discoverVar toLowercase env v = none := by
  obtain ⟨key, url⟩ := v
  obtain ⟨hkey, hurl⟩ := h
  have hshaped : isDiscoveryKey overlappingKey = true := by decide
  have hset : url.isEmpty = false := by simpa using hurl
  simp only at hkey
  rw [hkey, discoverVar, hshaped, hset, keyMiddle, overlappingKey_middle]
  rfl

/-- The provider as the loop builds it, with the URL of the variable it is at. -/
theorem declares_provider {name : String} (h : Declares name v) :
    discoverVar toLowercase env v =
      if env.clientId name = "" then
        some (.error (clientIdKey name ++ " is required when " ++ v.1 ++ " is set"))
      else some (.ok (some { env.provider toLowercase name with discoveryUrl := v.2 })) := by
  obtain ⟨key, url⟩ := v
  obtain ⟨hname, hkey, hurl⟩ := h
  have hset : url.isEmpty = false := by simpa using hurl
  have hnamed : name.isEmpty = false := by simpa using hname
  simp only at hkey
  rw [hkey, discoverVar, isDiscoveryKey_discoveryKey, hset, keyMiddle, discoveryKey_middle]
  simp only [hnamed, Bool.not_true, Bool.false_eq_true, if_false, String.isEmpty_iff]
  rfl

theorem other_passes (hdeclares : ∀ name, ¬ Declares name v) (hoverlaps : ¬ Overlaps v) :
    discoverVar toLowercase env v = some (.ok none) := by
  obtain ⟨key, url⟩ := v
  rw [discoverVar]
  split
  · rfl
  · rename_i hshaped
    split
    · rfl
    · rename_i hset
      have hurl : url ≠ "" := by simpa using hset
      rcases shaped_cases (by simpa using hshaped) with hkey | ⟨name, hkey⟩
      · exact absurd ⟨hkey, hurl⟩ hoverlaps
      · have hname : name.isEmpty = true := by
          by_contra hnot
          exact hdeclares name ⟨by simpa using hnot, hkey, hurl⟩
        rw [hkey, keyMiddle, discoveryKey_middle]
        simp only [hname, if_true]

theorem lacks_errs (h : env.Lacks v) : ∃ e, discoverVar toLowercase env v = some (.error e) := by
  obtain ⟨name, hdeclares, hmissing⟩ := h
  rw [declares_provider hdeclares, if_pos hmissing]
  exact ⟨_, rfl⟩

theorem Env.Safe.head (h : env.Safe (v :: vars)) : ¬ Overlaps v := by
  intro hoverlaps
  obtain ⟨u, hu, -⟩ := h [] v vars rfl hoverlaps
  cases hu

theorem Env.Safe.tail (h : env.Safe (v :: vars)) (hv : ¬ env.Lacks v) : env.Safe vars := by
  intro before w after hvars hoverlaps
  obtain ⟨u, hu, hlacks⟩ := h (v :: before) w after (by rw [hvars, List.cons_append]) hoverlaps
  rcases List.mem_cons.mp hu with rfl | hu
  · exact absurd hlacks hv
  · exact ⟨u, hu, hlacks⟩

/-- Nothing stops the loop here: it finds the declared provider or passes over the variable. -/
theorem var_cases (toLowercase : String → String) (hoverlaps : ¬ Overlaps v)
    (hlacks : ¬ env.Lacks v) :
    (∃ name, Declares name v ∧ discoverVar toLowercase env v =
      some (.ok (some { env.provider toLowercase name with discoveryUrl := v.2 }))) ∨
    (∀ name, ¬ Declares name v) ∧ discoverVar toLowercase env v = some (.ok none) := by
  by_cases hdeclares : ∃ name, Declares name v
  · obtain ⟨name, hname⟩ := hdeclares
    refine .inl ⟨name, hname, ?_⟩
    rw [declares_provider hname, if_neg fun hmissing => hlacks ⟨name, hname, hmissing⟩]
  · have hnone : ∀ name, ¬ Declares name v := fun name hname => hdeclares ⟨name, hname⟩
    exact .inr ⟨hnone, other_passes hnone hoverlaps⟩

theorem loop_goes_on (hoverlaps : ¬ Overlaps v) (hlacks : ¬ env.Lacks v) : ∃ found,
    discoverLoop toLowercase env (v :: vars) ps = discoverLoop toLowercase env vars found := by
  rcases var_cases toLowercase hoverlaps hlacks with ⟨name, -, hvar⟩ | ⟨-, hvar⟩
  · exact ⟨_, by rw [discoverLoop, hvar]⟩
  · exact ⟨_, by rw [discoverLoop, hvar]⟩

theorem loop_panics {before after : List (String × String)} (hbefore : ∀ u ∈ before, ¬ env.Lacks u)
    (hoverlaps : Overlaps v) :
    discoverLoop toLowercase env (before ++ v :: after) ps = none := by
  induction before generalizing ps with
  | nil => rw [List.nil_append, discoverLoop, overlaps_panics hoverlaps]
  | cons u before ih =>
    rw [List.cons_append]
    by_cases hpanics : Overlaps u
    · rw [discoverLoop, overlaps_panics hpanics]
    · obtain ⟨found, hloop⟩ := loop_goes_on hpanics (hbefore u List.mem_cons_self)
      rw [hloop]
      exact ih fun w hw => hbefore w (List.mem_cons_of_mem _ hw)

theorem loop_refuses (hsafe : env.Safe vars) (h : ∃ v ∈ vars, env.Lacks v) :
    ∃ e, discoverLoop toLowercase env vars ps = some (.error e) := by
  induction vars generalizing ps with
  | nil =>
    obtain ⟨v, hv, -⟩ := h
    cases hv
  | cons v vars ih =>
    by_cases hlacks : env.Lacks v
    · obtain ⟨e, he⟩ : ∃ e, discoverVar toLowercase env v = some (.error e) := lacks_errs hlacks
      exact ⟨e, by rw [discoverLoop, he]⟩
    · have hrest : ∃ u ∈ vars, env.Lacks u := by
        obtain ⟨u, hu, hmissing⟩ := h
        rcases List.mem_cons.mp hu with rfl | hu
        · exact absurd hmissing hlacks
        · exact ⟨u, hu, hmissing⟩
      obtain ⟨found, hloop⟩ := loop_goes_on hsafe.head hlacks
      rw [hloop]
      exact ih (hsafe.tail hlacks) hrest

/-- A loop that is not stopped finds the declared names in their order. -/
theorem loop_finds (hsafe : env.Safe vars) (h : ∀ v ∈ vars, ¬ env.Lacks v) :
    ∃ found : List (String × String),
      (found.map fun d => (discoveryKey d.1, d.2)).Sublist vars ∧
      (∀ d, d ∈ found ↔ ∃ v ∈ vars, Declares d.1 v ∧ v.2 = d.2) ∧
      discoverLoop toLowercase env vars ps = some (.ok (ps ++ found.map fun d =>
        { env.provider toLowercase d.1 with discoveryUrl := d.2 })) := by
  induction vars generalizing ps with
  | nil => exact ⟨[], .slnil, by simp, by rw [discoverLoop, List.map_nil, List.append_nil]⟩
  | cons v vars ih =>
    have hlacks := h v List.mem_cons_self
    have htail := fun qs => @ih qs (hsafe.tail hlacks) fun u hu => h u (List.mem_cons_of_mem _ hu)
    rw [discoverLoop]
    rcases var_cases toLowercase hsafe.head hlacks with ⟨name, hname, hvar⟩ | ⟨hnone, hvar⟩
    · rw [hvar]
      obtain ⟨found, hsub, hfound, hloop⟩ := htail (ps ++ [{ env.provider toLowercase name with
        discoveryUrl := v.2 }])
      refine ⟨(name, v.2) :: found, ?_, fun d => ?_, ?_⟩
      · have hv : v = (discoveryKey name, v.2) := by rw [← hname.2.1]
        rw [List.map_cons, ← hv]
        exact hsub.cons_cons v
      · rw [List.mem_cons, hfound d]
        constructor
        · rintro (rfl | ⟨u, hu, hd⟩)
          · exact ⟨v, List.mem_cons_self, hname, rfl⟩
          · exact ⟨u, List.mem_cons_of_mem _ hu, hd⟩
        · rintro ⟨u, hu, hd⟩
          rcases List.mem_cons.mp hu with rfl | hu
          · exact .inl (Prod.ext (hd.1.name_unique hname) hd.2.symm)
          · exact .inr ⟨u, hu, hd⟩
      · simpa using hloop
    · rw [hvar]
      obtain ⟨found, hsub, hfound, hloop⟩ := htail ps
      refine ⟨found, hsub.cons v, fun d => ?_, by simpa using hloop⟩
      rw [hfound d]
      constructor
      · rintro ⟨u, hu, hd⟩
        exact ⟨u, List.mem_cons_of_mem _ hu, hd⟩
      · rintro ⟨u, hu, hd⟩
        rcases List.mem_cons.mp hu with rfl | hu
        · exact absurd hd.1 (hnone _)
        · exact ⟨u, hu, hd⟩

/-- The loop takes no notice of variables that declare nothing. -/
theorem loop_sublist {env' : Env} {vars' : List (String × String)} (hsub : vars'.Sublist vars)
    (hnodup : vars.Nodup) (hsafe : env.Safe vars)
    (hkept : ∀ v ∈ vars, ∀ name, Declares name v → v ∈ vars')
    (hsame : ∀ v ∈ vars', discoverVar toLowercase env' v = discoverVar toLowercase env v) :
    discoverLoop toLowercase env' vars' ps = discoverLoop toLowercase env vars ps := by
  induction hsub generalizing ps with
  | slnil => rfl
  | cons v hsub ih =>
    rename_i vars' vars
    obtain ⟨hnew, hnodup⟩ := List.nodup_cons.mp hnodup
    have hnone : ∀ name, ¬ Declares name v := fun name hname =>
      hnew (hsub.subset (hkept v List.mem_cons_self name hname))
    have hlacks : ¬ env.Lacks v := fun ⟨name, hname, _⟩ => hnone name hname
    rw [discoverLoop.eq_def toLowercase env (v :: vars)]
    simp only [other_passes hnone hsafe.head, Option.toList_none, List.append_nil]
    exact ih hnodup (hsafe.tail hlacks) (fun u hu => hkept u (List.mem_cons_of_mem _ hu)) hsame
  | cons_cons v hsub ih =>
    rename_i vars' vars
    obtain ⟨hnew, hnodup⟩ := List.nodup_cons.mp hnodup
    have hkept' : ∀ u ∈ vars, ∀ name, Declares name u → u ∈ vars' := by
      intro u hu name hname
      rcases List.mem_cons.mp (hkept u (List.mem_cons_of_mem _ hu) name hname) with rfl | hmem
      · exact absurd hu hnew
      · exact hmem
    rw [discoverLoop, discoverLoop, hsame v List.mem_cons_self]
    by_cases hlacks : env.Lacks v
    · obtain ⟨e, he⟩ : ∃ e, discoverVar toLowercase env v = some (.error e) := lacks_errs hlacks
      rw [he]
    · have htail := fun qs => @ih qs hnodup (hsafe.tail hlacks) hkept' fun u hu =>
        hsame u (List.mem_cons_of_mem _ hu)
      rcases var_cases toLowercase hsafe.head hlacks with ⟨name, -, hvar⟩ | ⟨-, hvar⟩
      · rw [hvar]
        exact htail _
      · rw [hvar]
        exact htail _

end Loop

namespace Env
variable {env env' : Env}

theorem var_iff {key value : String} : env.var key = some value ↔ (key, value) ∈ env.vars := by
  rw [var, List.lookup_eq_some_iff]
  constructor
  · rintro ⟨before, after, hvars, -⟩
    rw [hvars]
    exact List.mem_append_right _ List.mem_cons_self
  · intro hmem
    obtain ⟨before, after, hvars⟩ := List.append_of_mem hmem
    refine ⟨before, after, hvars, fun v hv => ?_⟩
    have hdistinct := env.distinct
    rw [hvars, List.map_append, List.map_cons] at hdistinct
    have hne := (List.nodup_append.mp hdistinct).2.2 v.1 (List.mem_map_of_mem hv) key
      List.mem_cons_self
    simpa using hne.symm

/-- The name of a variable that belongs to a provider. -/
def Shaped (key : String) : Prop :=
  ∃ name, name ≠ "" ∧ (key = discoveryKey name ∨ key = clientIdKey name ∨ key = emailClaimKey name)

/-- `env'` has the variables of `env` but for some that belong to no provider. -/
structure Trims (env' env : Env) : Prop where
  fewer : env'.vars.Sublist env.vars
  kept : ∀ v ∈ env.vars, Shaped v.1 → v ∈ env'.vars

theorem Trims.var_eq (h : Trims env' env) {key : String} (hshaped : Shaped key) :
    env'.var key = env.var key := by
  refine Option.ext fun value => ?_
  rw [var_iff, var_iff]
  exact ⟨fun hmem => h.fewer.subset hmem, fun hmem => h.kept _ hmem hshaped⟩

theorem Declares.shaped {name : String} {v : String × String} (h : Declares name v) :
    Shaped v.1 := ⟨name, h.1, .inl h.2.1⟩

/-- A provider of this name is declared. -/
def Declared (env : Env) (name : String) : Prop := ∃ v ∈ env.vars, Declares name v

end Env

/-- What the discovery is for: it returns; it refuses exactly if a declared provider has no
client id, or if there is none and one is required; otherwise it returns each declared
provider once; and variables that belong to no provider do not matter. -/
structure Discovers (toLowercase : String → String) (env : Env) (environment : Environment) :
    Prop where
  returns : discoverOidcProviders toLowercase env environment ≠ none
  refuses : (∃ e, discoverOidcProviders toLowercase env environment = some (.error e)) ↔
    (∃ name, env.Declared name ∧ env.clientId name = "") ∨
      (∀ name, ¬ env.Declared name) ∧ environment ≠ .Local
  finds : ∀ providers, discoverOidcProviders toLowercase env environment = some (.ok providers) →
    ∃ names : List String, names.Nodup ∧ (∀ name, name ∈ names ↔ env.Declared name) ∧
      providers = names.map (env.provider toLowercase)
  ignores : ∀ env', Env.Trims env' env → discoverOidcProviders toLowercase env' environment =
    discoverOidcProviders toLowercase env environment

section Discovery
open Env
variable {toLowercase : String → String} {env env' : Env} {environment : Environment}

theorem Env.Trims.discovers (h : Trims env' env) (hsafe : env.Safe env.vars) :
    discoverOidcProviders toLowercase env' environment =
      discoverOidcProviders toLowercase env environment := by
  have hvar : ∀ v ∈ env'.vars, discoverVar toLowercase env' v = discoverVar toLowercase env v := by
    intro v hv
    by_cases hdeclares : ∃ name, Declares name v
    · obtain ⟨name, hname⟩ := hdeclares
      have hclient : env'.clientId name = env.clientId name := by
        rw [clientId, clientId, h.var_eq ⟨name, hname.1, .inr (.inl rfl)⟩]
      rw [declares_provider hname, declares_provider hname, provider, provider, hclient,
        h.var_eq ⟨name, hname.1, .inr (.inr rfl)⟩]
    · have hnone : ∀ name, ¬ Declares name v := fun name hname => hdeclares ⟨name, hname⟩
      by_cases hoverlaps : Overlaps v
      · rw [overlaps_panics hoverlaps, overlaps_panics hoverlaps]
      · rw [other_passes hnone hoverlaps, other_passes hnone hoverlaps]
  have hloop : discoverLoop toLowercase env' env'.vars [] =
      discoverLoop toLowercase env env.vars [] :=
    loop_sublist h.fewer (.of_map _ env.distinct) hsafe
      (fun v hv name hname => h.kept v hv hname.shaped) hvar
  rw [discoverOidcProviders, discoverOidcProviders, hloop]

theorem discovers_panics (h : ¬ env.Safe env.vars) :
    discoverOidcProviders toLowercase env environment = none := by
  simp only [Env.Safe, not_forall, not_exists, not_and] at h
  obtain ⟨before, v, after, hvars, hoverlaps, hbefore⟩ := h
  rw [discoverOidcProviders, hvars, loop_panics hbefore hoverlaps]

theorem discovers_refuses (hsafe : env.Safe env.vars) (h : ∃ v ∈ env.vars, env.Lacks v) :
    ∃ e, discoverOidcProviders toLowercase env environment = some (.error e) := by
  obtain ⟨e, hloop⟩ : ∃ e, discoverLoop toLowercase env env.vars [] = some (.error e) :=
    loop_refuses hsafe h
  exact ⟨e, by rw [discoverOidcProviders, hloop]⟩

/-- Without a missing client id the loop ends with each declared provider once. -/
theorem loop_exact (toLowercase : String → String) (hsafe : env.Safe env.vars)
    (h : ∀ v ∈ env.vars, ¬ env.Lacks v) :
    ∃ names : List String, names.Nodup ∧ (∀ name, name ∈ names ↔ env.Declared name) ∧
      discoverLoop toLowercase env env.vars [] =
        some (.ok (names.map (env.provider toLowercase))) := by
  obtain ⟨found, hsub, hfound, hloop⟩ := @loop_finds toLowercase env env.vars [] hsafe h
  refine ⟨found.map Prod.fst, ?_, fun name => ?_, ?_⟩
  · have hkeys := (hsub.map Prod.fst).nodup env.distinct
    rw [List.map_map] at hkeys
    refine List.Nodup.of_map discoveryKey ?_
    rw [List.map_map]
    exact hkeys
  · simp only [List.mem_map, Declared]
    constructor
    · rintro ⟨d, hd, rfl⟩
      obtain ⟨v, hv, hname, -⟩ := (hfound d).mp hd
      exact ⟨v, hv, hname⟩
    · rintro ⟨v, hv, hname⟩
      exact ⟨(name, v.2), (hfound _).mpr ⟨v, hv, hname, rfl⟩, rfl⟩
  · rw [hloop, List.nil_append, List.map_map]
    congr 2
    refine List.map_congr_left fun d hd => ?_
    have hvar : env.var (discoveryKey d.1) = some d.2 :=
      var_iff.mpr (hsub.subset (List.mem_map_of_mem hd))
    simp only [provider, Function.comp_apply, hvar, Option.getD_some]

/-- The discovery does what it is for exactly if it does not get to a non-empty
`OIDC_DISCOVERY_URL`: none is set, or a provider without a client id stands before it. -/
theorem discovers_iff (toLowercase : String → String) (env : Env) (environment : Environment) :
    Discovers toLowercase env environment ↔ env.Safe env.vars := by
  constructor
  · intro h
    by_contra hnot
    exact h.returns (discovers_panics hnot)
  · intro hsafe
    have hlacks : (∃ name, env.Declared name ∧ env.clientId name = "") ↔
        ∃ v ∈ env.vars, env.Lacks v := by
      constructor
      · rintro ⟨name, ⟨v, hv, hname⟩, hmissing⟩
        exact ⟨v, hv, name, hname, hmissing⟩
      · rintro ⟨v, hv, name, hname, hmissing⟩
        exact ⟨name, ⟨v, hv, hname⟩, hmissing⟩
    by_cases hmissing : ∃ v ∈ env.vars, env.Lacks v
    · obtain ⟨e, he⟩ : ∃ e, discoverOidcProviders toLowercase env environment = some (.error e) :=
        discovers_refuses hsafe hmissing
      constructor
      · simp [he]
      · exact ⟨fun _ => .inl (hlacks.mpr hmissing), fun _ => ⟨e, he⟩⟩
      · simp [he]
      · exact fun env' h => h.discovers hsafe
    · have hnone : ∀ v ∈ env.vars, ¬ env.Lacks v := fun v hv h => hmissing ⟨v, hv, h⟩
      obtain ⟨names, hnodup, hnames, hloop⟩ := loop_exact toLowercase hsafe hnone
      have hempty : names = [] ↔ ∀ name, ¬ env.Declared name := by
        simp only [List.eq_nil_iff_forall_not_mem, hnames]
      have hdiscover : discoverOidcProviders toLowercase env environment =
          if names = [] ∧ environment ≠ .Local then
            some (.error ("at least one OIDC provider (OIDC_*_DISCOVERY_URL) is required in " ++
              "non-local environments"))
          else some (.ok (names.map (env.provider toLowercase))) := by
        have hrequired : ((names.map (env.provider toLowercase)).isEmpty &&
            environment != .Local) = true ↔ names = [] ∧ environment ≠ .Local := by simp
        rw [discoverOidcProviders, hloop]
        simp only [hrequired]
      constructor
      · rw [hdiscover]
        split
        · exact Option.some_ne_none _
        · exact Option.some_ne_none _
      · rw [hlacks, ← hempty, hdiscover]
        by_cases hrequired : names = [] ∧ environment ≠ .Local
        · rw [if_pos hrequired]
          exact ⟨fun _ => .inr hrequired, fun _ => ⟨_, rfl⟩⟩
        · rw [if_neg hrequired]
          constructor
          · rintro ⟨e, he⟩
            cases he
          · rintro (hlack | hnot)
            · exact absurd hlack hmissing
            · exact absurd hnot hrequired
      · intro providers hproviders
        rw [hdiscover] at hproviders
        split at hproviders
        · cases hproviders
        · exact ⟨names, hnodup, hnames, (Except.ok.inj (Option.some.inj hproviders)).symm⟩
      · exact fun env' h => h.discovers hsafe

/-- Lowercase letters of ASCII names. -/
def asciiLowercase (s : String) : String := .ofList (s.toList.map Char.toLower)

/-- A deployment that sets the variable without a name does not boot. -/
theorem discovery_panics : ¬ ∀ env environment, Discovers asciiLowercase env environment := by
  intro h
  exact (h ⟨[("OIDC_DISCOVERY_URL", "https://accounts.google.com")], by decide⟩ .Prod).returns
    (by decide)

example : discoverOidcProviders asciiLowercase
    ⟨[("OIDC_GOOGLE_DISCOVERY_URL", "https://accounts.google.com"),
      ("OIDC__DISCOVERY_URL", "https://nobody"), ("OIDC_GOOGLE_CLIENT_ID", "client")], by decide⟩
    .Prod = some (.ok [⟨"google", "https://accounts.google.com", "client", "email"⟩]) := by decide

end Discovery

end SvcAuth
