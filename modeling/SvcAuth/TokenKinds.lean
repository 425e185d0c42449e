import SvcAuth.Handlers
import SvcAuth.SampleDeployment

/-! The two kinds of service tokens. They share key, algorithm and issuer, and the claims
of a refresh token contain those of an access token. So a refresh token is told from an
access token only once it has lapsed; the other way round the missing `jti` tells. -/
namespace SvcAuth
open Interleave

variable (D : Deps) (S : AppState)

/-- The two kinds of tokens are told apart at clock reading `now`: the refresh token signed
for `email` at `signed` is no access token, neither to the verifier nor as the access
cookie of `/auth/check`, and no access token is a refresh token. -/
def KindsApart (email : String) (id : Uuid) (signed now : ℕ) : Prop :=
  (∀ refresh, Prog.Ran (S.jwt.signRefreshToken D email) [⟨.nowV7, id⟩, ⟨.utcNow, signed⟩]
      (.ok (refresh, id)) →
    (∀ claims, ¬ Prog.Ran (S.jwt.verifyAccessToken D refresh) [⟨.utcNow, now⟩] (.ok claims)) ∧
    ∀ headers, ¬ Prog.Ran (handleJwtCookie D S refresh headers) [⟨.utcNow, now⟩]
      (.ofStatus 200)) ∧
  ∀ email' signed' access,
    Prog.Ran (S.jwt.signAccessToken D email') [⟨.utcNow, signed'⟩] (.ok access) →
    ∀ claims, ¬ Prog.Ran (S.jwt.verifyRefreshToken D access) [⟨.utcNow, now⟩] (.ok claims)

/-- A refresh token signed at `signed` is past its expiry and the leeway at `now`. Where
the sum wraps below zero the claim cannot be read, and the token never verifies; where the
difference does, at a moment before the leeway itself is over, every expiry is past. -/
def JwtService.RefreshLapsed (svc : JwtService) (signed now : ℕ) : Prop :=
  let exp := (Int64.ofNat signed + svc.refreshTtlSecs.toInt64).toInt
  exp < 0 ∨ exp < JsonWebToken.leewayStart clockSkewLeewaySecs now

instance (svc : JwtService) (signed now : ℕ) : Decidable (svc.RefreshLapsed signed now) :=
  inferInstanceAs (Decidable (_ ∨ _))

section Signing
variable {D} {svc : JwtService} {email : String} {id : Uuid} {signed now : ℕ}

theorem ran_signAccessToken {r : Except String String} :
    Prog.Ran (svc.signAccessToken D email) [⟨.utcNow, signed⟩] r ↔
      r = .ok (svc.accessToken D email signed) := by
  rw [JwtService.signAccessToken_eq]
  exact Prog.ran_step.trans Prog.ran_done

theorem ran_signRefreshToken {r : Except String (String × Uuid)} :
    Prog.Ran (svc.signRefreshToken D email) [⟨.nowV7, id⟩, ⟨.utcNow, signed⟩] r ↔
      r = .ok (svc.refreshToken D email id signed, id) := by
  rw [JwtService.signRefreshToken_eq]
  exact Prog.ran_step.trans (Prog.ran_step.trans Prog.ran_done)

theorem ran_verifyAccessToken {token : String} {r : Except JwtError AccessClaims} :
    Prog.Ran (svc.verifyAccessToken D token) [⟨.utcNow, now⟩] r ↔
      r = svc.accessVerdict D token now :=
  Prog.ran_step.trans Prog.ran_done

theorem ran_verifyRefreshToken {token : String} {r : Except JwtError RefreshClaims} :
    Prog.Ran (svc.verifyRefreshToken D token) [⟨.utcNow, now⟩] r ↔
      r = svc.refreshVerdict D token now :=
  Prog.ran_step.trans Prog.ran_done

end Signing

section Verdicts
variable {D S}

theorem JwtService.refresh_passes_iff (svc : JwtService) (email : String) (id : Uuid)
    (signed now : ℕ) : (∃ claims, svc.accessVerdict D (svc.refreshToken D email id signed) now =
      .ok claims) ↔ ¬ svc.RefreshLapsed signed now := by
  rw [JwtService.accessVerdict_refreshToken]
  exact JwtService.expiryVerdict_ok D

theorem check_accepts_only {token : String} {headers : HeaderMap} {now : ℕ}
    (h : Prog.Ran (handleJwtCookie D S token headers) [⟨.utcNow, now⟩] (.ofStatus 200)) :
    ∃ claims, S.jwt.accessVerdict D token now = .ok claims := by
  rw [handleJwtCookie, JwtService.verifyAccessToken_bind] at h
  obtain ⟨r, rest, heq, h⟩ := Prog.ran_call.mp h
  cases heq
  cases hv : S.jwt.accessVerdict D token now with
  | ok claims => exact ⟨claims, rfl⟩
  | error e =>
    exfalso
    rw [hv] at h
    -- every other answer clears a cookie, refuses, or reads the clock again
    cases hon : S.authCheckSilentRefresh with
    | false =>
      cases e <;> simp only [hon, Prog.pure_eq, Bool.false_eq_true, if_false] at h <;>
        cases (Prog.ran_ret.mp h).2
    | true =>
      cases e with
      | Invalid message =>
        simp only [hon, Prog.pure_eq, if_true] at h
        cases (Prog.ran_ret.mp h).2
      | Expired =>
        simp only [hon, if_true, silentRefresh] at h
        cases hjwt : extractRefreshCookie headers S.cookieConfig with
        | none =>
          rw [hjwt] at h
          cases (Prog.ran_ret.mp h).2
        | some jwt =>
          rw [hjwt] at h
          obtain ⟨r, rest, heq, -⟩ := Prog.ran_call.mp h
          cases heq

end Verdicts

theorem kinds_apart_verdict {D : Deps} {S : AppState} {email : String} {id : Uuid}
    {signed now : ℕ} : KindsApart D S email id signed now ↔
      ¬ ∃ claims, S.jwt.accessVerdict D (S.jwt.refreshToken D email id signed) now = .ok claims := by
  constructor
  · rintro h ⟨claims, hok⟩
    exact (h.1 _ (ran_signRefreshToken.mpr rfl)).1 claims (ran_verifyAccessToken.mpr hok.symm)
  · intro h
    constructor
    · intro refresh hr
      have hrefresh := congrArg Prod.fst (Except.ok.inj (ran_signRefreshToken.mp hr))
      simp only at hrefresh
      subst hrefresh
      exact ⟨fun claims hv => h ⟨claims, (ran_verifyAccessToken.mp hv).symm⟩,
        fun headers hv => h (check_accepts_only hv)⟩
    · intro email' signed' access ha claims hv
      have haccess := Except.ok.inj (ran_signAccessToken.mp ha)
      subst haccess
      have hverdict := (ran_verifyRefreshToken.mp hv).trans
        (S.jwt.refreshVerdict_accessToken D email' signed' now)
      cases hverdict

/-- Refresh and access tokens are told apart at a moment exactly if the refresh token has
lapsed by then. -/
theorem kinds_apart_iff (email : String) (id : Uuid) (signed now : ℕ) :
    KindsApart D S email id signed now ↔ S.jwt.RefreshLapsed signed now := by
  rw [kinds_apart_verdict, S.jwt.refresh_passes_iff, not_not]

/-- An hour after it was signed, when access tokens of its age have expired, a refresh
token passes for one. -/
theorem kinds_confused : ¬ KindsApart Sample.deps Sample.state "user@example.com"
    ⟨BitVec.ofNat 128 1⟩ Sample.moment (Sample.moment + 3600) := by
  intro h
  have hlive : ¬ Sample.state.jwt.RefreshLapsed Sample.moment (Sample.moment + 3600) := by decide
  exact kinds_apart_verdict.mp h ((Sample.state.jwt.refresh_passes_iff _ _ _ _).mpr hlive)

theorem Sample.live_later {seconds : ℕ} (h : seconds ≤ 604800) :
    ¬ state.jwt.RefreshLapsed moment (moment + seconds) := by
  have hexp : (Int64.ofNat moment + state.jwt.refreshTtlSecs.toInt64).toInt = 1700604800 := by
    decide
  have hmoment : moment = 1700000000 := rfl
  have hleeway := JsonWebToken.leewayStart_eq
    (show clockSkewLeewaySecs ≤ moment + seconds by rw [hmoment, clockSkewLeewaySecs]; omega)
  rw [JwtService.RefreshLapsed, hexp, hleeway, hmoment]
  omega

theorem Sample.live : ¬ state.jwt.RefreshLapsed moment moment :=
  live_later (Nat.zero_le 604800)

end SvcAuth
