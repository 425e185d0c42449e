import SvcAuth.TokenKinds

/-! How long a minted token lives. The configured lifetime is unsigned, the claims are
signed: the expiry is the moment of signing plus the lifetime as long as that sum fits the
signed type, and then the token is good until the leeway behind it has passed. -/
namespace SvcAuth
open Interleave JsonWebToken

section Arithmetic
variable {now : ℕ} {ttl : UInt64}

theorem toInt_toInt64 (ttl : UInt64) : ttl.toInt64.toInt = (ttl.toNat : ℤ).bmod (2 ^ 64) := by
  rw [Int64.toInt, UInt64.toBitVec_toInt64, BitVec.toInt_eq_toNat_bmod, UInt64.toNat_toBitVec]

theorem expiry_toInt (now : ℕ) (ttl : UInt64) :
    (Int64.ofNat now + ttl.toInt64).toInt = ((now + ttl.toNat : ℕ) : ℤ).bmod (2 ^ 64) := by
  rw [Int64.toInt_add, Int64.toInt_ofNat', toInt_toInt64]
  push_cast
  simp [Int64.size]

theorem expiry_exact_iff : (Int64.ofNat now + ttl.toInt64).toInt = now + ttl.toNat ↔
    now + ttl.toNat < 2 ^ 63 := by
  constructor
  · intro hexact
    have hhi := (Int64.ofNat now + ttl.toInt64).toInt_lt
    omega
  · intro hfits
    rw [expiry_toInt, Int.bmod_eq_of_le (by omega) (by omega)]
    push_cast
    rfl

end Arithmetic

section Lifetimes
variable {D : Deps} {svc : JwtService} {email : String} {id : Uuid} {now : ℕ} {ttl : UInt64}

/-- A token minted at `now` lives for exactly `ttl` seconds and the leeway: its expiry is
the sum, it verifies until then at every moment that the leeway can be taken from, and
after that it is refused as expired. -/
structure LivesFor {T : Type} (exp : Int64) (claims : T) (now : ℕ) (ttl : UInt64)
    (verifies : ℕ → Except JwtError T → Prop) : Prop where
  exp_exact : exp.toInt = now + ttl.toNat
  accepted : ∀ t, clockSkewLeewaySecs ≤ t → now ≤ t → t ≤ now + ttl.toNat + clockSkewLeewaySecs →
    verifies t (.ok claims)
  expired : ∀ t, now + ttl.toNat + clockSkewLeewaySecs < t → verifies t (.error .Expired)

/-- The lifetime of the access token signed for `email` at `now`. -/
def AccessLifetime (D : Deps) (svc : JwtService) (email : String) (now : ℕ) : Prop :=
  ∀ token, Prog.Ran (svc.signAccessToken D email) [⟨.utcNow, now⟩] (.ok token) →
    LivesFor (svc.accessClaims email now).exp (svc.accessClaims email now) now svc.accessTtlSecs
      fun t r => Prog.Ran (svc.verifyAccessToken D token) [⟨.utcNow, t⟩] r

/-- The lifetime of the refresh token signed for `email` at `now`. -/
def RefreshLifetime (D : Deps) (svc : JwtService) (email : String) (id : Uuid) (now : ℕ) : Prop :=
  ∀ token, Prog.Ran (svc.signRefreshToken D email) [⟨.nowV7, id⟩, ⟨.utcNow, now⟩]
      (.ok (token, id)) →
    LivesFor (svc.refreshClaims D email id now).exp (svc.refreshClaims D email id now) now
      svc.refreshTtlSecs fun t r => Prog.Ran (svc.verifyRefreshToken D token) [⟨.utcNow, t⟩] r

/-- A token lives as long as it should exactly if its expiry fits. -/
theorem livesFor_iff {T : Type} {claims : T} {verifies : ℕ → Except JwtError T → Prop}
    (hverifies : ∀ t r, verifies t r ↔
      r = JwtService.expiryVerdict D (Int64.ofNat now + ttl.toInt64) t claims) :
    LivesFor (Int64.ofNat now + ttl.toInt64) claims now ttl verifies ↔
      now + ttl.toNat < 2 ^ 63 := by
  constructor
  · exact fun h => expiry_exact_iff.mp h.exp_exact
  · intro hfits
    have hexact := expiry_exact_iff.mpr hfits
    have hsign : ¬ (Int64.ofNat now + ttl.toInt64).toInt < 0 := by omega
    constructor
    · exact hexact
    · intro t hstart hfrom hto
      have hleeway := leewayStart_eq hstart
      have hfresh : ¬ (Int64.ofNat now + ttl.toInt64).toInt < leewayStart clockSkewLeewaySecs t := by
        omega
      rw [hverifies, JwtService.expiryVerdict, if_neg hsign, if_neg hfresh]
    · intro t hpast
      have hstart : clockSkewLeewaySecs ≤ t := by omega
      have hleeway := leewayStart_eq hstart
      have hlate : (Int64.ofNat now + ttl.toInt64).toInt < leewayStart clockSkewLeewaySecs t := by
        omega
      rw [hverifies, JwtService.expiryVerdict, if_neg hsign, if_pos hlate]

theorem accessLifetime_iff : AccessLifetime D svc email now ↔
    now + svc.accessTtlSecs.toNat < 2 ^ 63 := by
  have hverifies : ∀ (t : ℕ) r, Prog.Ran (svc.verifyAccessToken D (svc.accessToken D email now))
      [⟨.utcNow, t⟩] r ↔
        r = JwtService.expiryVerdict D (svc.accessClaims email now).exp t
          (svc.accessClaims email now) := by
    intro t r
    rw [ran_verifyAccessToken, svc.accessVerdict_accessToken]
  rw [← livesFor_iff hverifies]
  constructor
  · intro h
    exact h _ (ran_signAccessToken.mpr rfl)
  · intro h token hsigned
    cases ran_signAccessToken.mp hsigned
    exact h

theorem refreshLifetime_iff : RefreshLifetime D svc email id now ↔
    now + svc.refreshTtlSecs.toNat < 2 ^ 63 := by
  have hverifies : ∀ (t : ℕ) r, Prog.Ran (svc.verifyRefreshToken D (svc.refreshToken D email id now))
      [⟨.utcNow, t⟩] r ↔
        r = JwtService.expiryVerdict D (svc.refreshClaims D email id now).exp t
          (svc.refreshClaims D email id now) := by
    intro t r
    rw [ran_verifyRefreshToken, svc.refreshVerdict_refreshToken]
  rw [← livesFor_iff hverifies]
  constructor
  · intro h
    exact h _ (ran_signRefreshToken.mpr rfl)
  · intro h token hsigned
    have htoken := congrArg Prod.fst (Except.ok.inj (ran_signRefreshToken.mp hsigned))
    simp only at htoken
    subst htoken
    exact h

/-- Both kinds of tokens live as long as configured exactly if both expiries fit the signed
64-bit type. -/
theorem lifetimes_exact_iff (D : Deps) (svc : JwtService) (email : String) (id : Uuid) (now : ℕ) :
    AccessLifetime D svc email now ∧ RefreshLifetime D svc email id now ↔
      now + svc.accessTtlSecs.toNat < 2 ^ 63 ∧ now + svc.refreshTtlSecs.toNat < 2 ^ 63 :=
  and_congr accessLifetime_iff refreshLifetime_iff

/-- A lifetime of 2^63 seconds is cast to a negative one. -/
theorem lifetime_wraps : ¬ ∀ (svc : JwtService) email id now, 5 ≤ now → now < 2 ^ 40 →
    AccessLifetime Sample.deps svc email now ∧ RefreshLifetime Sample.deps svc email id now := by
  intro hclaim
  obtain ⟨haccess, -⟩ := hclaim ⟨"secret", "svc-auth", 9223372036854775808, 604800⟩
    "user@example.com" ⟨1⟩ 1700000000 (by decide) (by decide)
  have hfits := accessLifetime_iff.mp haccess
  simp at hfits

end Lifetimes

end SvcAuth
