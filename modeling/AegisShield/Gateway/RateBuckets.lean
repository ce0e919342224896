import AegisShield.Common.Routes

/-!
# Rate-limit buckets of the Gateway

`classifyRateLimitBucket` (`rate-limit-buckets.ts`, lines 47-110) against the router in front of
the handlers it protects. The router matches the literal segments of a route in any case; the
buckets are looked up by the segments as they are spelled.

Results:
* `classifyRateLimitBucket_mem`: the buckets are those of a fixed list.
* `bucket_of_route`: the bucket of a request target that is sent to a protected handler.
* `buckets_follow_routes_iff`: when two targets of one handler have the same bucket.
* `respelled_route`: two spellings of one route with a bucket each.
-/

namespace AegisShield.Gateway

open Common

/-! ## Model (`rate-limit-buckets.ts`) -/

/-- `RateLimitBucket` (lines 29-34). -/
structure RateLimitBucket where
  name : String
  limit : ℕ
  deriving DecidableEq

/-- `DEFAULT_LIMIT` (line 40). -/
def DEFAULT_LIMIT : ℕ := 120

/-- `AUTH_FAMILIES` (lines 47-61). -/
def AUTH_FAMILIES : List (String × ℕ) :=
  [("session", 120), ("onboarding", 60), ("fallback", 40), ("passkeys", 60), ("logout", 60)]

/-- `UNKNOWN_AUTH_LIMIT` (line 64). -/
def UNKNOWN_AUTH_LIMIT : ℕ := 20

/-- `KNOWN_SEGMENTS` (lines 70-77). -/
def KNOWN_SEGMENTS : List String :=
  ["auth", "accounts", "transfers", "channels", "security-ops", "sabcl"]

/-- `UNKNOWN_SEGMENT_BUCKET` (line 80). -/
def UNKNOWN_SEGMENT_BUCKET : String := "unclassified"

/-- `UNKNOWN_SEGMENT_LIMIT` (line 81). -/
def UNKNOWN_SEGMENT_LIMIT : ℕ := 20

/-- The buckets of `auth`, by the segment behind it (lines 99-109). -/
def authBucket (family : Option String) : RateLimitBucket :=
  match family.bind fun name => (AUTH_FAMILIES.lookup name).map fun limit => (name, limit) with
  | some (name, limit) => ⟨"auth:" ++ name, limit⟩
  | none => ⟨"auth:unclassified", UNKNOWN_AUTH_LIMIT⟩

/-- `classifyRateLimitBucket` (lines 90-110). -/
def classifyRateLimitBucket (path : List Char) : RateLimitBucket :=
  let segments := (segments path).map String.ofList
  match segments[2]? with
  | none => ⟨UNKNOWN_SEGMENT_BUCKET, UNKNOWN_SEGMENT_LIMIT⟩
  | some segment =>
    if segment ∉ KNOWN_SEGMENTS then ⟨UNKNOWN_SEGMENT_BUCKET, UNKNOWN_SEGMENT_LIMIT⟩
    else if segment ≠ "auth" then ⟨segment, DEFAULT_LIMIT⟩
    else authBucket segments[3]?

/-- `target.split('?', 1)[0]` (`auth-rate-limit.middleware.ts`, line 29), which is also the path
    that the router matches. -/
def pathOf (target : String) : List Char := target.toList.takeWhile (· ≠ '?')

/-- The bucket of a request target. -/
def targetBucket (target : String) : RateLimitBucket := classifyRateLimitBucket (pathOf target)

/-! ## Protected handlers -/

/-- A handler of a controller with its method and route. -/
structure ProtectedRoute where
  handler : String
  method : String
  route : RoutePath
  deriving DecidableEq

/-- The handlers of a controller under `api/v1`. -/
def controller (name : String) (base : RoutePath)
    (handlers : List (String × String × RoutePath)) : List ProtectedRoute :=
  handlers.map fun handler =>
    ⟨name ++ "." ++ handler.1, handler.2.1, [some "api", some "v1"] ++ base ++ handler.2.2⟩

/-- The handlers behind the limiter (`app.module.ts`, lines 34-41), in the order of their
    controllers. -/
def protectedRoutes : List ProtectedRoute :=
  controller "AuthController" [some "auth"]
    [("requestOnboardingOtp", "POST", [some "onboarding", some "request-otp"]),
     ("verifyOnboardingOtp", "POST", [some "onboarding", some "verify-otp"]),
     ("createPin", "POST", [some "onboarding", some "create-pin"]),
     ("requestFallbackOtp", "POST", [some "fallback", some "request-otp"]),
     ("fallbackLogin", "POST", [some "fallback", some "login"]),
     ("session", "GET", [some "session"]),
     ("logout", "POST", [some "logout"]),
     ("registrationOptions", "POST", [some "passkeys", some "registration", some "options"]),
     ("verifyRegistration", "POST", [some "passkeys", some "registration", some "verify"]),
     ("authenticationOptions", "POST", [some "passkeys", some "authentication", some "options"]),
     ("verifyAuthentication", "POST", [some "passkeys", some "authentication", some "verify"])] ++
  controller "AccountsController" [some "accounts"]
    [("list", "GET", []),
     ("provisionDefault", "POST", [some "default"]),
     ("detail", "GET", [none]),
     ("balance", "GET", [none, some "balance"]),
     ("transactions", "GET", [none, some "transactions"]),
     ("transaction", "GET", [none, some "transactions", none])] ++
  controller "TransfersController" [some "transfers"]
    [("policy", "GET", [some "policy"]),
     ("preview", "POST", [some "preview"]),
     ("confirm", "POST", [some "confirm"]),
     ("list", "GET", []),
     ("detail", "GET", [none])] ++
  controller "OperatorsController" [some "security-ops"]
    [("signIn", "POST", [some "sign-in"]),
     ("sessionInfo", "GET", [some "session"]),
     ("logout", "POST", [some "logout"]),
     ("overview", "GET", [some "overview"]),
     ("events", "GET", [some "events"]),
     ("assessments", "GET", [some "assessments"]),
     ("controls", "GET", [some "controls"]),
     ("incidents", "GET", [some "incidents"]),
     ("incident", "GET", [some "incidents", none]),
     ("apply", "POST", [some "controls"]),
     ("release", "POST", [some "controls", none, some "release"]),
     ("updateIncident", "POST", [some "incidents", none])] ++
  controller "ResilienceController" [some "security-ops", some "resilience"]
    [("readiness", "GET", [some "readiness"]),
     ("drills", "GET", [some "drills"]),
     ("drill", "GET", [some "drills", none]),
     ("events", "GET", [some "drills", none, some "events"]),
     ("plan", "POST", [some "drills"]),
     ("acknowledge", "POST", [some "drills", none, some "acknowledge"])]

/-- The handler that the router sends a request to; `HEAD` goes to the handlers of `GET`. The
    target is in origin form and has no `#`, as HTTP clients send it. -/
def dispatch (method target : String) : Option ProtectedRoute :=
  protectedRoutes.find? fun route =>
    (decide (route.method = method) || decide (method = "HEAD" ∧ route.method = "GET")) &&
      pathMatches route.route (pathOf target)

/-! ## Buckets -/

/-- The buckets there are. -/
def rateLimitBuckets : List RateLimitBucket :=
  ⟨UNKNOWN_SEGMENT_BUCKET, UNKNOWN_SEGMENT_LIMIT⟩ :: ⟨"auth:unclassified", UNKNOWN_AUTH_LIMIT⟩ ::
    ((KNOWN_SEGMENTS.filter (· ≠ "auth")).map fun segment => ⟨segment, DEFAULT_LIMIT⟩) ++
    AUTH_FAMILIES.map fun family => ⟨"auth:" ++ family.1, family.2⟩

theorem authBucket_mem (family : Option String) : authBucket family ∈ rateLimitBuckets := by
  unfold authBucket
  split
  next name limit h =>
    obtain ⟨family, -, h⟩ := Option.bind_eq_some_iff.mp h
    obtain ⟨found, hfound, heq⟩ := Option.map_eq_some_iff.mp h
    obtain ⟨rfl, rfl⟩ := Prod.mk.inj heq
    obtain ⟨front, back, hfamilies, -⟩ := List.lookup_eq_some_iff.mp hfound
    have hmem : (family, found) ∈ AUTH_FAMILIES := by
      rw [hfamilies]
      simp
    exact List.mem_append_right _ (List.mem_map.mpr ⟨_, hmem, rfl⟩)
  · simp [rateLimitBuckets]

/-- Every bucket is one of a fixed list. -/
theorem classifyRateLimitBucket_mem (path : List Char) :
    classifyRateLimitBucket path ∈ rateLimitBuckets := by
  unfold classifyRateLimitBucket
  dsimp only
  split
  · exact List.mem_cons_self
  next segment _ =>
    by_cases hknown : segment ∈ KNOWN_SEGMENTS
    · rw [if_neg (not_not_intro hknown)]
      by_cases hauth : segment = "auth"
      · rw [if_neg (not_not_intro hauth)]
        exact authBucket_mem _
      · rw [if_pos hauth]
        have hmem : segment ∈ KNOWN_SEGMENTS.filter (· ≠ "auth") :=
          List.mem_filter.mpr ⟨hknown, decide_eq_true hauth⟩
        exact List.mem_cons_of_mem _ (List.mem_cons_of_mem _
          (List.mem_append_left _ (List.mem_map.mpr ⟨segment, hmem, rfl⟩)))
    · rw [if_pos hknown]
      exact List.mem_cons_self

/-- The segment of a target, where it has one, is in lower case. -/
def LowerCase (target : String) (i : ℕ) : Prop :=
  ∀ segment, (segments (pathOf target))[i]? = some segment → lowered segment = segment

instance (target : String) (i : ℕ) : Decidable (LowerCase target i) :=
  decidable_of_iff (∀ segment ∈ (segments (pathOf target))[i]?, lowered segment = segment) Iff.rfl

theorem known_lowered : ∀ known ∈ KNOWN_SEGMENTS, lowered known.toList = known.toList := by
  decide

theorem family_lowered : ∀ family ∈ AUTH_FAMILIES, lowered family.1.toList = family.1.toList := by
  decide

/-- The third segment of a protected route is a known one, and behind `auth` the fourth is a
    family. -/
theorem protected_segments : ∀ route ∈ protectedRoutes, NonemptyLiterals route.route ∧
    ∃ known ∈ KNOWN_SEGMENTS, route.route[2]? = some (some known) ∧
      (known = "auth" → ∃ family ∈ AUTH_FAMILIES, route.route[3]? = some (some family.1)) := by
  unfold NonemptyLiterals
  decide

section Route

variable {target : String} {route : RoutePath}

/-- At a literal in lower case, the target is in lower case where it has the literal itself. -/
theorem segment_of_route {text : String} {i : ℕ} (h : pathMatches route (pathOf target) = true)
    (hroute : NonemptyLiterals route) (htext : route[i]? = some (some text))
    (hlower : lowered text.toList = text.toList) :
    ∃ segment, (segments (pathOf target))[i]? = some segment ∧ lowered segment = text.toList ∧
      (LowerCase target i ↔ String.ofList segment = text) := by
  obtain ⟨segment, hsegment, heq⟩ := pathMatches_literal h hroute htext
  rw [hlower] at heq
  refine ⟨segment, hsegment, heq, ?_⟩
  constructor
  · intro hcase
    rw [← hcase segment hsegment, heq, String.ofList_toList]
  · intro hsame other hother
    obtain rfl : segment = other := Option.some.inj (hsegment.symm.trans hother)
    rw [heq, ← hsame, String.toList_ofList]

/-- The bucket of a target that the route of a known segment matches. -/
theorem targetBucket_of_route {known : String} (h : pathMatches route (pathOf target) = true)
    (hroute : NonemptyLiterals route) (hthird : route[2]? = some (some known))
    (hknown : known ∈ KNOWN_SEGMENTS) :
    targetBucket target =
      if LowerCase target 2 then
        if known = "auth" then authBucket ((segments (pathOf target))[3]?.map String.ofList)
        else ⟨known, DEFAULT_LIMIT⟩
      else ⟨UNKNOWN_SEGMENT_BUCKET, UNKNOWN_SEGMENT_LIMIT⟩ := by
  obtain ⟨segment, hsegment, heq, hcase⟩ :=
    segment_of_route h hroute hthird (known_lowered known hknown)
  unfold targetBucket classifyRateLimitBucket
  dsimp only
  rw [List.getElem?_map, hsegment, List.getElem?_map]
  dsimp only [Option.map_some]
  by_cases hlower : LowerCase target 2
  · rw [hcase.mp hlower, if_neg (not_not_intro hknown), if_pos hlower]
    by_cases hauth : known = "auth"
    · rw [if_neg (not_not_intro hauth), if_pos hauth]
    · rw [if_pos hauth, if_neg hauth]
  · -- a known segment is in lower case, so another spelling is not known
    have hother : String.ofList segment ∉ KNOWN_SEGMENTS := by
      intro hmem
      have hsame := known_lowered _ hmem
      rw [String.toList_ofList, heq] at hsame
      exact hlower (hcase.mpr (by rw [← hsame, String.ofList_toList]))
    rw [if_pos hother, if_neg hlower]

/-- The bucket of a family, by the spelling of the segment behind `auth`. -/
theorem authBucket_of_route {family : String × ℕ} (h : pathMatches route (pathOf target) = true)
    (hroute : NonemptyLiterals route) (hfourth : route[3]? = some (some family.1))
    (hfamily : family ∈ AUTH_FAMILIES) :
    authBucket ((segments (pathOf target))[3]?.map String.ofList) =
      if LowerCase target 3 then ⟨"auth:" ++ family.1, family.2⟩
      else ⟨"auth:unclassified", UNKNOWN_AUTH_LIMIT⟩ := by
  have hlookup : ∀ family ∈ AUTH_FAMILIES, AUTH_FAMILIES.lookup family.1 = some family.2 := by
    decide
  obtain ⟨segment, hsegment, heq, hcase⟩ :=
    segment_of_route h hroute hfourth (family_lowered family hfamily)
  rw [hsegment, Option.map_some]
  by_cases hlower : LowerCase target 3
  · rw [hcase.mp hlower, if_pos hlower, authBucket, Option.bind_some, hlookup family hfamily]
    rfl
  · have hother : AUTH_FAMILIES.lookup (String.ofList segment) = none := by
      rw [List.lookup_eq_none_iff]
      intro other hmem
      have hsame := family_lowered other hmem
      rw [bne_iff_ne]
      intro hname
      rw [← hname, String.toList_ofList, heq] at hsame
      exact hlower (hcase.mpr (by rw [← hsame, String.ofList_toList]))
    rw [if_neg hlower, authBucket, Option.bind_some, hother]
    rfl

end Route

/-! ## Targets of one handler -/

theorem ite_eq_ite_of_ne {α : Type*} {a b : α} (h : a ≠ b) (p q : Prop) [Decidable p]
    [Decidable q] : (if p then a else b) = (if q then a else b) ↔ (p ↔ q) := by
  by_cases hp : p <;> by_cases hq : q <;> simp [hp, hq, h, h.symm]

theorem pathMatches_of_dispatch {method target : String} {route : ProtectedRoute}
    (h : dispatch method target = some route) :
    route ∈ protectedRoutes ∧ pathMatches route.route (pathOf target) = true := by
  unfold dispatch at h
  have hsome := List.find?_some h
  rw [Bool.and_eq_true] at hsome
  exact ⟨List.mem_of_find?_eq_some h, hsome.2⟩

/-- The buckets are finitely many, and two targets that are sent to one handler have the same
    bucket exactly when their segments behind `api/v1` are both in lower case or both not, and,
    behind `auth`, so are the next ones. -/
theorem buckets_follow_routes_iff (method₁ target₁ method₂ target₂ : String)
    (route : ProtectedRoute) : (Set.range targetBucket).Finite ∧
      (dispatch method₁ target₁ = some route → dispatch method₂ target₂ = some route →
        (targetBucket target₁ = targetBucket target₂ ↔
          (LowerCase target₁ 2 ↔ LowerCase target₂ 2) ∧
            (route.route[2]? = some (some "auth") → LowerCase target₁ 2 → LowerCase target₂ 2 →
              (LowerCase target₁ 3 ↔ LowerCase target₂ 3)))) := by
  constructor
  · refine Set.Finite.subset (List.finite_toSet rateLimitBuckets) ?_
    rintro _ ⟨target, rfl⟩
    exact classifyRateLimitBucket_mem (pathOf target)
  · intro h₁ h₂
    obtain ⟨hmem, hmatch₁⟩ := pathMatches_of_dispatch h₁
    have hmatch₂ := (pathMatches_of_dispatch h₂).2
    obtain ⟨hroute, known, hknown, hthird, hfamilies⟩ := protected_segments route hmem
    rw [targetBucket_of_route hmatch₁ hroute hthird hknown,
      targetBucket_of_route hmatch₂ hroute hthird hknown]
    by_cases hauth : known = "auth"
    · -- behind `auth` there are three buckets, one for each spelling
      obtain ⟨family, hfamily, hfourth⟩ := hfamilies hauth
      have hnames : ∀ family ∈ AUTH_FAMILIES, "auth:" ++ family.1 ≠ "auth:unclassified" ∧
          "auth:" ++ family.1 ≠ UNKNOWN_SEGMENT_BUCKET := by decide
      have hother : (⟨"auth:" ++ family.1, family.2⟩ : RateLimitBucket) ≠
          ⟨"auth:unclassified", UNKNOWN_AUTH_LIMIT⟩ := fun heq =>
        (hnames family hfamily).1 (congrArg RateLimitBucket.name heq)
      have hunclassified : ∀ (p : Prop) [Decidable p],
          (if p then ⟨"auth:" ++ family.1, family.2⟩
            else ⟨"auth:unclassified", UNKNOWN_AUTH_LIMIT⟩ : RateLimitBucket) ≠
          ⟨UNKNOWN_SEGMENT_BUCKET, UNKNOWN_SEGMENT_LIMIT⟩ := by
        intro p _ heq
        have hname := congrArg RateLimitBucket.name heq
        by_cases hp : p
        · rw [if_pos hp] at hname
          exact (hnames family hfamily).2 hname
        · rw [if_neg hp] at hname
          exact absurd hname (by decide)
      rw [if_pos hauth, if_pos hauth, authBucket_of_route hmatch₁ hroute hfourth hfamily,
        authBucket_of_route hmatch₂ hroute hfourth hfamily, hthird, hauth]
      by_cases hlower₁ : LowerCase target₁ 2 <;> by_cases hlower₂ : LowerCase target₂ 2
      · simpa [hlower₁, hlower₂] using ite_eq_ite_of_ne hother _ _
      · simpa [hlower₁, hlower₂] using hunclassified _
      · simpa [hlower₁, hlower₂] using (hunclassified _).symm
      · simp [hlower₁, hlower₂]
    · have hlimit : (⟨known, DEFAULT_LIMIT⟩ : RateLimitBucket) ≠
          ⟨UNKNOWN_SEGMENT_BUCKET, UNKNOWN_SEGMENT_LIMIT⟩ := fun heq =>
        absurd (congrArg RateLimitBucket.limit heq) (show 120 ≠ 20 by decide)
      rw [if_neg hauth, if_neg hauth, ite_eq_ite_of_ne hlimit, hthird]
      simp [hauth]

/-- The session check of `AuthController`. -/
def sessionRoute : ProtectedRoute :=
  ⟨"AuthController.session", "GET", [some "api", some "v1", some "auth", some "session"]⟩

/-- A query and a slash at the end change nothing, nor does the spelling of `api`. -/
theorem buckets_follow_routes_session :
    targetBucket "/api/v1/auth/session?next=home" = targetBucket "/API/v1/auth/session/" := by
  refine ((buckets_follow_routes_iff "GET" _ "HEAD" _ sessionRoute).2 ?_ ?_).mpr ?_
  · decide
  · decide
  · decide

/-- A caller that has used up `auth:session` goes on in `unclassified`. -/
theorem respelled_route : ¬ ∀ (method₁ target₁ method₂ target₂ : String) (route : ProtectedRoute),
    dispatch method₁ target₁ = some route → dispatch method₂ target₂ = some route →
      targetBucket target₁ = targetBucket target₂ := by
  intro h
  have hbuckets := h "GET" "/api/v1/auth/session" "GET" "/api/v1/AUTH/session" sessionRoute
    (by decide) (by decide)
  exact absurd hbuckets (by decide)

end AegisShield.Gateway
