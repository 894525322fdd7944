/-
How long tokens are good. A configuration names a number of hours, and a
login and the command that issues tokens both make a token from it and
tell its lifetime in seconds. The lifetime that is told and the expiry
that is claimed are computed apart from each other, each through numbers
of 64 signed bits, and the expiry must be an instant of the calendar as
well.

The calendar is the narrowest of these bounds. As long as a token issued
now expires within it, nothing is cut off, and both computations give
the hours of the configuration (`issues_of_instant`); beyond it issuing
panics, or hours that do not fit have become a negative number and the
token is over when it is issued. So lifetimes are exact if and only if
the expiry is within the calendar (`lasts_as_configured_iff`).
-/
import Tenancy.Cli.Run
import Tenancy.Proofs.Api.Requests
import Tenancy.Proofs.Token.RoundTrip

namespace Tenancy

open Http Program

variable {config : Config} {service : TokenService} {user : Uuid} {now n : Int}

-- ====================================================== configuration

namespace Config

/-- The token service of a configuration. -/
def tokens (c : Config) : TokenService :=
  ⟨c.security.jwtSecret, c.security.jwtExpiryHours⟩

/-- How many seconds a configuration wants its tokens to be good. -/
def lifetime (c : Config) : Int := 3600 * c.security.jwtExpiryHours

theorem lifetime_nonneg (c : Config) : 0 ≤ c.lifetime := by
  unfold lifetime
  omega

theorem le_of_readNat? {max k : Nat} {s : String}
    (h : Text.readNat? max s = some k) : k ≤ max := by
  obtain ⟨m, -, hm⟩ := Option.bind_eq_some_iff.1 h
  split at hm
  · cases hm
    assumption
  · cases hm

/-- The hours of a configuration are a number of 64 bits. -/
theorem jwtExpiryHours_le (env : Environment) :
    (ofEnvironment env).security.jwtExpiryHours ≤ 0xffffffffffffffff := by
  have hdefault :
      ∀ stage,
        (defaults stage).security.jwtExpiryHours ≤ 0xffffffffffffffff := by
    intro stage
    cases stage <;> decide
  show ((env "SECURITY_JWT_EXPIRY_HOURS").bind
      (Text.readNat? 0xffffffffffffffff)).getD _ ≤ _
  cases hread : (env "SECURITY_JWT_EXPIRY_HOURS").bind
    (Text.readNat? 0xffffffffffffffff) with
  | none => exact hdefault _
  | some k =>
    obtain ⟨text, -, htext⟩ := Option.bind_eq_some_iff.1 hread
    exact le_of_readNat? htext

end Config

-- ============================================================ issuing

namespace TokenService

/-- An instant of the calendar. -/
def IsInstant (n : Int) : Prop := calendar.1 ≤ n ∧ n ≤ calendar.2

instance (n : Int) : Decidable (IsInstant n) :=
  inferInstanceAs (Decidable (_ ∧ _))

theorem IsInstant.isInt64 (h : IsInstant n) : IsInt64 n := by
  have hlow : -8334601228800 ≤ n := h.1
  have hhigh : n ≤ 8210266876799 := h.2
  unfold IsInt64
  omega

theorem isInt64_toInt64 (n : Int) : IsInt64 (toInt64 n) := by
  unfold IsInt64 toInt64 Int.bmod
  dsimp only
  split <;> omega

/-- A number that fits is taken as it is. -/
theorem toInt64_of_isInt64 (h : IsInt64 n) : toInt64 n = n := by
  obtain ⟨hlow, hhigh⟩ := h
  exact Int.bmod_eq_of_le_mul_two (by omega) (by omega)

/-- A number of 64 bits that does not fit becomes negative. -/
theorem toInt64_of_le {k : Nat} (hk : k ≤ 0xffffffffffffffff) :
    toInt64 k = k ∨ toInt64 k < 0 := by
  by_cases hfits : (k : Int) < 0x8000000000000000
  · exact .inl (toInt64_of_isInt64 ⟨by omega, hfits⟩)
  · refine .inr ?_
    unfold toInt64 Int.bmod
    dsimp only
    split <;> omega

/-- A token bears claims: it is the token that makes them, and as long as they
have not expired, they are what its service finds in it. -/
def Bears (service : TokenService) (token : String) (c : Claims) : Prop :=
  service.encode c = .ok token ∧ ∀ t, 0 ≤ t → t ≤ c.expires →
    service.verify t token = .ok c

theorem exists_bears (hsecret : service.secret ≠ "") {c : Claims}
    (hissued : IsInt64 c.issuedAt)
    (hexpires : IsInt64 c.expires) : ∃ token, service.Bears token c := by
  refine ⟨_, encode_eq hsecret c, fun t ht hgood => ?_⟩
  rw [verify_dotted hsecret, if_pos rfl, accept_encodeText t hissued hexpires,
    if_neg (Int.not_lt.2 (Int.le_trans ht hgood)), if_neg (Int.not_lt.2 hgood)]
  rfl

/-- What the calendar comes to: a span that is too long leads beyond it from
every one of its instants. -/
theorem later_span (hnow : IsInstant now) (hours : Int) :
    (span hours >>= fun seconds => later now seconds)
      = if IsInstant (now + hours * 3600) then .returns (now + hours * 3600)
        else .panics := by
  by_cases hspan : -longestSpan ≤ hours * 3600 ∧ hours * 3600 ≤ longestSpan
  · have hseconds : span hours = .returns (hours * 3600) := if_pos hspan
    rw [hseconds]
    rfl
  · have hpanics : span hours = .panics := if_neg hspan
    have hbeyond : ¬IsInstant (now + hours * 3600) := by
      obtain ⟨hlow, hhigh⟩ := hnow
      rintro ⟨hlow', hhigh'⟩
      unfold calendar at *
      unfold longestSpan at hspan
      omega
    rw [hpanics, if_neg hbeyond]
    rfl

/-- A token is issued if its expiry is an instant, and else issuing it
panics. -/
theorem issue_eq (service : TokenService) (user : Uuid)
    (hnow : IsInstant now) :
    service.issue now user
      = if IsInstant (now + toInt64 service.expiryHours * 3600) then
          .returns (service.encode
            ⟨user, now, now + toInt64 service.expiryHours * 3600⟩)
        else .panics := by
  have hissue : service.issue now user
      = (span (toInt64 service.expiryHours)
        >>= fun seconds => later now seconds)
          >>= fun expires => pure (service.encode ⟨user, now, expires⟩) := by
    unfold issue
    cases span (toInt64 service.expiryHours) <;> rfl
  rw [hissue, later_span hnow]
  by_cases hinstant : IsInstant (now + toInt64 service.expiryHours * 3600)
  · rw [if_pos hinstant, if_pos hinstant]
    rfl
  · rw [if_neg hinstant, if_neg hinstant]
    rfl

theorem instant_of_issue {token : String} (hnow : IsInstant now)
    (h : service.issue now user = .returns (.ok token)) :
    IsInstant (now + toInt64 service.expiryHours * 3600) := by
  rw [issue_eq service user hnow] at h
  by_cases hinstant : IsInstant (now + toInt64 service.expiryHours * 3600)
  · exact hinstant
  · rw [if_neg hinstant] at h
    cases h

/-- A token that is issued bears an expiry. -/
theorem exists_issued (user : Uuid) (hsecret : service.secret ≠ "")
    (hnow : IsInstant now)
    (hexpires : IsInstant (now + toInt64 service.expiryHours * 3600)) :
    ∃ token, service.issue now user = .returns (.ok token)
      ∧ service.Bears token
        ⟨user, now, now + toInt64 service.expiryHours * 3600⟩ := by
  obtain ⟨token, hbears⟩ := exists_bears hsecret
    (c := ⟨user, now, now + toInt64 service.expiryHours * 3600⟩) hnow.isInt64
      hexpires.isInt64
  refine ⟨token, ?_, hbears⟩
  rw [issue_eq service user hnow, if_pos hexpires]
  exact congrArg MayPanic.returns hbears.1

/-- What is told is the lifetime itself only if that fits into 64 bits, and
then so do the hours. -/
theorem expiresIn_eq_iff : service.expiresIn = 3600 * service.expiryHours
    ↔ IsInt64 (3600 * service.expiryHours) := by
  constructor
  · intro h
    rw [← h]
    exact isInt64_toInt64 _
  · intro h
    have hhours : toInt64 service.expiryHours = service.expiryHours := by
      refine toInt64_of_isInt64 ?_
      unfold IsInt64 at h ⊢
      omega
    unfold expiresIn
    rw [hhours, Int.mul_comm]
    exact toInt64_of_isInt64 h

end TokenService

-- ============================================================ lifetimes

/-- A token issued now is good for some seconds, and this is what is told of
it. -/
structure Issues (config : Config) (now : Int) (user : Uuid) (seconds : Int)
    (token : String) : Prop where
  issued : config.tokens.issue now user = .returns (.ok token)
  bears : config.tokens.Bears token ⟨user, now, now + seconds⟩
  told : config.tokens.expiresIn = seconds
  /-- The command tells it. -/
  command (url : Option String) :
    Cli.run config url now true (.tokenIssue user)
    = pure (Cli.success true "Token issued" [
        ("token", .str token), ("token_type", .str "Bearer"),
        ("expires_in", .int seconds)])
  /-- And so does a login of the user. -/
  login {cap : Option Int} {policies : Registry} {hasDatabase : Bool}
    {service : Service}
    (hservice : Service.ofConfig config cap policies hasDatabase
      = .returns service)
    {time : Timestamp}
    (htime : time.seconds = now) {request : Request} {found : User}
      (hfound : found.id = user)
    {σ : Type} {world : World apiInterface σ} {s s' : σ}
    (hcredentials : Succeeds world (Handler.credentials request) s found s') :
    (service.answerAt time request (.toAnyone .login)).run world s
      = (.returns (Reply.success 200 (Handler.loginJson token seconds user)),
        s')

/-- A token for the user can be had, and it is good for so many seconds. -/
def Lasts (config : Config) (now : Int) (user : Uuid) (seconds : Int) : Prop :=
  ∃ token, Issues config now user seconds token

theorem tokens_of_ofConfig {cap : Option Int} {policies : Registry}
    {hasDatabase : Bool} {service : Service}
    (h : Service.ofConfig config cap policies hasDatabase = .returns service) :
    service.facilities.tokens = config.tokens := by
  unfold Service.ofConfig at h
  by_cases hcors : config.security.enableCors = true
  · simp only [if_pos hcors] at h
    cases hlist : Cors.ofEntries config.security.corsOrigins with
    | panics =>
      rw [hlist] at h
      cases h
    | returns cors =>
      rw [hlist] at h
      cases h
      rfl
  · simp only [if_neg hcors] at h
    cases h
    rfl

-- Where a token is issued is rewritten before anything is computed: to
-- compute on whether it is would count through the bounds of the calendar.

/-- The command prints the token that is issued. -/
theorem run_tokenIssue (url : Option String) {token : String}
    (hissued : config.tokens.issue now user = .returns (.ok token)) :
    Cli.run config url now true (.tokenIssue user)
      = pure (Cli.success true "Token issued" [
        ("token", .str token), ("token_type", .str "Bearer"),
        ("expires_in", .int config.tokens.expiresIn)]) := by
  have hservice :
      (⟨config.security.jwtSecret, config.security.jwtExpiryHours⟩ :
        TokenService).issue now user = .returns (.ok token) := hissued
  simp only [Cli.run, hservice]
  rfl

/-- A login with the credentials of a user is given the token that is
issued. -/
theorem login_of_credentials {facilities : Facilities} {request : Request}
    {found : User} {token : String} {σ : Type} {world : World apiInterface σ}
    {s s' : σ}
    (hcredentials : Succeeds world (Handler.credentials request) s found s')
    (hissued : facilities.tokens.issue now found.id = .returns (.ok token)) :
    Succeeds world (Handler.login facilities now request) s
      (Handler.loginJson token facilities.tokens.expiresIn found.id) s' := by
  unfold Handler.login
  refine succeeds_bind.2 ⟨found, s', hcredentials, ?_⟩
  simp only [hissued]
  rfl

/-- Within the calendar, everything is as configured. -/
theorem issues_of_instant (hsecret : config.security.jwtSecret ≠ "")
    (hnow : TokenService.IsInstant now)
    (hexpires : TokenService.IsInstant (now + config.lifetime)) :
    Lasts config now user config.lifetime := by
  have hlifetime : IsInt64 (3600 * config.security.jwtExpiryHours) := by
    have hlow : -8334601228800 ≤ now := hnow.1
    have hhigh : now + 3600 * config.security.jwtExpiryHours ≤ 8210266876799 :=
      hexpires.2
    unfold IsInt64
    omega
  have hhours : TokenService.toInt64 config.tokens.expiryHours
      = config.security.jwtExpiryHours := by
    refine TokenService.toInt64_of_isInt64 ?_
    show IsInt64 config.security.jwtExpiryHours
    unfold IsInt64 at hlifetime ⊢
    omega
  have hseconds : TokenService.toInt64 config.tokens.expiryHours * 3600
      = config.lifetime := by
    rw [hhours, Int.mul_comm]
    rfl
  have htold : config.tokens.expiresIn = config.lifetime :=
    TokenService.expiresIn_eq_iff.2 hlifetime
  have hinstant : TokenService.IsInstant
      (now + TokenService.toInt64 config.tokens.expiryHours * 3600) := by
    rwa [hseconds]
  obtain ⟨token, hissued, hbears⟩ :=
    TokenService.exists_issued user hsecret hnow hinstant
  rw [hseconds] at hbears
  refine ⟨token, hissued, hbears, htold, fun url => ?_, ?_⟩
  · rw [← htold]
    exact run_tokenIssue url hissued
  · intro cap policies hasDatabase service hservice time htime request found
      hfound σ world s s' hcredentials
    have hfacilities := tokens_of_ofConfig hservice
    have hlogin : Succeeds world
        (Handler.login service.facilities time.seconds request) s
        (Handler.loginJson token config.lifetime user) s' := by
      rw [htime, ← htold, ← hfacilities, ← hfound]
      refine login_of_credentials hcredentials ?_
      rw [hfacilities, hfound]
      exact hissued
    unfold Succeeds at hlogin
    unfold Service.answerAt
    rw [Service.run_respond, hlogin]
    rfl

/-- Beyond the calendar, issuing a token panics, or the token is over. -/
theorem panics_or_over_of_beyond (env : Environment) (user : Uuid) {now : Int}
    (hsecret : (Config.ofEnvironment env).security.jwtSecret ≠ "")
    (hnow : TokenService.IsInstant now)
    (hbeyond : TokenService.calendar.2
      < now + (Config.ofEnvironment env).lifetime) :
    (Config.ofEnvironment env).tokens.issue now user = .panics
      ∨ ∃ token c,
        (Config.ofEnvironment env).tokens.issue now user = .returns (.ok token)
        ∧ (Config.ofEnvironment env).tokens.Bears token c
        ∧ c.expires < now := by
  let service := (Config.ofEnvironment env).tokens
  by_cases hinstant : TokenService.IsInstant
    (now + TokenService.toInt64 service.expiryHours * 3600)
  · obtain ⟨token, hissued, hbears⟩ :=
      TokenService.exists_issued user hsecret hnow hinstant
    refine .inr ⟨token, _, hissued, hbears, ?_⟩
    show now + TokenService.toInt64 service.expiryHours * 3600 < now
    have hhours : service.expiryHours ≤ 0xffffffffffffffff :=
      Config.jwtExpiryHours_le env
    rcases TokenService.toInt64_of_le hhours with hsame | hnegative
    · -- hours that fit are beyond the calendar, and so no instant
      have hhigh := hinstant.2
      rw [hsame, Int.mul_comm] at hhigh
      exact absurd hhigh (Int.not_le.2 hbeyond)
    · omega
  · refine .inl ?_
    rw [TokenService.issue_eq service user hnow]
    exact if_neg hinstant

/-- Tokens are good for exactly the hours that are configured, and that is
what the command and every login tell, if and only if the expiry is an
instant of the calendar. -/
theorem lasts_as_configured_iff (env : Environment) (user : Uuid) {now : Int}
    (hsecret : (Config.ofEnvironment env).security.jwtSecret ≠ "")
    (hnow : TokenService.IsInstant now) :
    Lasts (Config.ofEnvironment env) now user
      (Config.ofEnvironment env).lifetime
      ↔ now + (Config.ofEnvironment env).lifetime
        ≤ TokenService.calendar.2 := by
  have hnonneg := (Config.ofEnvironment env).lifetime_nonneg
  constructor
  · rintro ⟨token, h⟩
    have hfits : IsInt64 (Config.ofEnvironment env).lifetime := by
      rw [← h.told]
      exact TokenService.isInt64_toInt64 _
    have hhours :
        TokenService.toInt64 (Config.ofEnvironment env).tokens.expiryHours
        = (Config.ofEnvironment env).security.jwtExpiryHours := by
      refine TokenService.toInt64_of_isInt64 ?_
      show IsInt64 (Config.ofEnvironment env).security.jwtExpiryHours
      unfold Config.lifetime IsInt64 at *
      omega
    have hinstant := TokenService.instant_of_issue hnow h.issued
    rw [hhours, Int.mul_comm] at hinstant
    exact hinstant.2
  · intro hend
    refine issues_of_instant hsecret hnow ⟨?_, hend⟩
    exact Int.le_trans hnow.1 (by omega)

/-- An environment that names only a secret. -/
def plainEnvironment : Environment := .ofList [("JWT_SECRET", "oracle-secret")]

/-- There, tokens are good for a week. -/
theorem plainEnvironment_lasts :
    (Config.ofEnvironment plainEnvironment).lifetime = 604800
      ∧ Lasts (Config.ofEnvironment plainEnvironment) 1700000000 (.ofNat 1)
        604800 :=
  ⟨by decide,
    (lasts_as_configured_iff plainEnvironment (.ofNat 1) (by decide)
      (by decide)).2 (by decide)⟩

/-- An environment that names the greatest number of hours. -/
def longestEnvironment : Environment :=
  .ofList
    [("JWT_SECRET", "oracle-secret"),
      ("SECURITY_JWT_EXPIRY_HOURS", "18446744073709551615")]

/-- There, a token that is issued is over for an hour already. -/
theorem longest_lifetime_is_over :
    ¬Lasts (Config.ofEnvironment longestEnvironment) 1700000000 (.ofNat 1)
        (Config.ofEnvironment longestEnvironment).lifetime
      ∧ (Config.ofEnvironment longestEnvironment).tokens.expiresIn = -3600
      ∧ ∃ token,
        (Config.ofEnvironment longestEnvironment).tokens.issue 1700000000
          (.ofNat 1)
          = .returns (.ok token)
        ∧ (Config.ofEnvironment longestEnvironment).tokens.Bears token
            ⟨.ofNat 1, 1700000000, 1699996400⟩ := by
  have htold :
      (Config.ofEnvironment longestEnvironment).tokens.expiresIn = -3600 := by
    decide
  have hsecret :
      (Config.ofEnvironment longestEnvironment).tokens.secret ≠ "" := by decide
  have hnow : TokenService.IsInstant 1700000000 := by decide
  have hseconds : 1700000000 + TokenService.toInt64
      (Config.ofEnvironment longestEnvironment).tokens.expiryHours * 3600
        = 1699996400 := by decide
  refine ⟨?_, htold, ?_⟩
  · rintro ⟨token, h⟩
    have hnonneg := (Config.ofEnvironment longestEnvironment).lifetime_nonneg
    rw [← h.told, htold] at hnonneg
    exact absurd hnonneg (by decide)
  · have hissued := TokenService.exists_issued (.ofNat 1) hsecret hnow
    rw [hseconds] at hissued
    exact hissued (by decide)

end Tenancy
