import AegisShield.Common.Expiring
import AegisShield.Common.Pool

/-!
# Identity service: configuration, errors and digests

The parts of the Identity service that its OTP, session and PIN code share.
-/

namespace AegisShield.Identity

/-- `AuthError` (`auth.error.ts`, lines 3-12): a code, a message and an HTTP status. -/
structure AuthError where
  code : String
  message : String
  status : ℕ
  deriving DecidableEq

/-- `invalidCredentialsError` (`auth.error.ts`, lines 14-19). -/
def invalidCredentialsError : AuthError :=
  { code := "INVALID_CREDENTIALS", message := "Authentication could not be completed.",
    status := 401 }

/-- The error that `verify` of `otp.service.ts` throws. -/
def invalidOtp : AuthError :=
  { code := "INVALID_OTP", message := "The one-time code is invalid or expired.", status := 401 }

/-- The error that `read` and `safeUser` of `session.service.ts` throw. -/
def unauthenticated : AuthError :=
  { code := "UNAUTHENTICATED", message := "Authentication is required.", status := 401 }

/-- The error that `requireCsrf` of `session.service.ts` throws. -/
def invalidCsrf : AuthError :=
  { code := "INVALID_CSRF", message := "The CSRF token is invalid.", status := 403 }

/-- The settings of `IdentityConfig` (`identity.config.ts`, lines 5-31) that the modelled code
    reads, as `createIdentityConfig` accepts them: `integerSetting` has minimum 1, and the absolute
    lifetime is not shorter than the idle one. -/
structure IdentityConfig where
  internalToken : String
  sessionIdleTtlSeconds : ℕ
  sessionAbsoluteTtlSeconds : ℕ
  otpTtlSeconds : ℕ
  otpMaxAttempts : ℕ
  sessionIdleTtlSeconds_pos : 1 ≤ sessionIdleTtlSeconds
  sessionAbsoluteTtlSeconds_pos : 1 ≤ sessionAbsoluteTtlSeconds
  otpTtlSeconds_pos : 1 ≤ otpTtlSeconds
  otpMaxAttempts_pos : 1 ≤ otpMaxAttempts
  idle_le_absolute : sessionIdleTtlSeconds ≤ sessionAbsoluteTtlSeconds

/-- The defaults of `createIdentityConfig` (`identity.config.ts`, lines 110-117). -/
def defaultConfig (internalToken : String) : IdentityConfig where
  internalToken := internalToken
  sessionIdleTtlSeconds := 900
  sessionAbsoluteTtlSeconds := 28800
  otpTtlSeconds := 300
  otpMaxAttempts := 5
  sessionIdleTtlSeconds_pos := by decide
  sessionAbsoluteTtlSeconds_pos := by decide
  otpTtlSeconds_pos := by decide
  otpMaxAttempts_pos := by decide
  idle_le_absolute := by decide

/-- `PreferredLanguage` (`schema.prisma`). -/
inductive PreferredLanguage where
  | EN
  | SI
  | TA
  deriving DecidableEq

/-- `UserStatus` (`schema.prisma`, lines 17-22). -/
inductive UserStatus where
  | PENDING
  | ACTIVE
  | LOCKED
  | DISABLED
  deriving DecidableEq

/-- The columns of `User` (`schema.prisma`, lines 24-43) that the modelled code reads or writes;
    `pinHash` is that of its `PinCredential`. Dates are milliseconds. -/
structure User where
  id : String
  phoneE164 : String
  preferredLanguage : PreferredLanguage
  kycTier : ℕ
  status : UserStatus
  phoneVerifiedAt : Option ℕ
  lastAuthenticatedAt : Option ℕ
  failedLoginCount : ℕ
  lockedUntil : Option ℕ
  pinHash : Option String
  deriving DecidableEq

/-- The digests of `security.ts`, as hexadecimal text: `sha256(value)` and
    `keyedDigest(value, secret)`. -/
structure Digests where
  sha256 : String → String
  keyedDigest : String → String → String

/-- A readable stand-in for the digests of `security.ts`, for concrete runs. -/
def plainDigests : Digests where
  sha256 value := "sha256:" ++ value
  keyedDigest value secret := secret ++ ":" ++ value

/-- `timingSafeStringEqual` (`security.ts`, lines 11-18): false on two empty strings. -/
def timingSafeStringEqual (left right : String) : Bool :=
  if left.utf8ByteSize ≠ right.utf8ByteSize ∨ left.utf8ByteSize = 0 then false
  else left == right

/-- `maskPhone` (`security.ts`, lines 20-23). -/
def maskPhone (phone : String) : String :=
  let characters := phone.toList
  if characters.length ≤ 7 then "***"
  else
    String.ofList (characters.take 3 ++ List.replicate (characters.length - 6) '*' ++
      characters.drop (characters.length - 3))

/-- `maskDevice` (`security.ts`, lines 25-27): an empty device id counts as none. -/
def maskDevice (digests : Digests) (deviceId : Option String) : Option String :=
  match deviceId with
  | none => none
  | some deviceId =>
    if deviceId = "" then none
    else some ("device:" ++ String.ofList ((digests.sha256 deviceId).toList.take 12))

end AegisShield.Identity
