import AegisShield.Common.CappedTable
import AegisShield.Gateway.RateBuckets

/-!
# The rate limiter of the Gateway

`AuthRateLimitMiddleware` (`auth-rate-limit.middleware.ts`, lines 15-82). It counts the requests of
an address in a bucket in windows of one minute, in a map of at most `maximumEntries` windows: when
there are more, the window that stands first is dropped, whether it has expired or not.

Results:
* `windowsAfter_length_le`: the map holds at most `maximumEntries` windows after any requests.
* `letThrough_le_of_keeps`: the requests that are let through while a window is in the map.
* `evicted_of_live`: what drops a window that has not expired.
* `rate_limit_bounds`: the three together.
* `flooded_window`: a flood of other addresses in the life of a window.
-/

namespace AegisShield.Gateway

open Common

/-! ## Model (`auth-rate-limit.middleware.ts`) -/

/-- `RATE_LIMIT_WINDOW_MS`. -/
def RATE_LIMIT_WINDOW_MS : ℕ := 60000

/-- `maximumEntries`. -/
def maximumEntries : ℕ := 10000

/-- `RateWindow` (lines 10-13) with its key in the map. -/
structure RateWindow where
  key : String
  count : ℕ
  expiresAt : ℕ
  deriving DecidableEq

instance : Keyed RateWindow String := ⟨RateWindow.key⟩

/-- The windows in the order in which their keys were first set. -/
abbrev RateWindows := Table RateWindow

/-- What the limiter reads of a request, and the time it reads it at. -/
structure RateRequest where
  now : ℕ
  ip : Option String
  originalUrl : String
  path : String
  method : String
  correlationId : String

/-- `request.originalUrl || request.path`; `pathOf` cuts the query off. -/
def RateRequest.target (request : RateRequest) : String :=
  if request.originalUrl = "" then request.path else request.originalUrl

/-- `request.ip || 'unknown'`. -/
def RateRequest.address (request : RateRequest) : String :=
  if request.ip.getD "" = "" then "unknown" else request.ip.getD ""

/-- The bucket of a request. -/
def RateRequest.bucket (request : RateRequest) : RateLimitBucket := targetBucket request.target

/-- `` `${request.ip || 'unknown'}:${bucket.name}` ``. -/
def RateRequest.key (request : RateRequest) : String :=
  request.address ++ ":" ++ request.bucket.name

/-- The event for Risk and the error of a request that is refused. -/
structure RateViolation where
  eventType : String
  severity : String
  route : String
  method : String
  requestCount : ℕ
  status : ℕ
  code : String
  message : String
  correlationId : String

/-- The header `ratelimit-remaining`, and the violation unless the request is let through. -/
structure RateReply where
  remaining : String
  violation : Option RateViolation

/-- The window that the map has for a request, unless it has expired. -/
def current (windows : RateWindows) (request : RateRequest) : Option RateWindow :=
  (windows.find request.key).filter fun window => decide (request.now < window.expiresAt)

/-- The window of a request with the request counted (lines 34-40). -/
def counted (windows : RateWindows) (request : RateRequest) : RateWindow :=
  let window := (current windows request).getD
    ⟨request.key, 0, request.now + RATE_LIMIT_WINDOW_MS⟩
  { window with count := window.count + 1 }

/-- The violation (lines 53-79). A request target is ASCII, so that `slice` counts characters. -/
def violation (request : RateRequest) (requestCount : ℕ) : RateViolation where
  eventType := "RATE_LIMIT_VIOLATION"
  severity := "MEDIUM"
  route := String.ofList ((pathOf request.target).take 256)
  method := request.method
  requestCount := requestCount
  status := 429
  code := "RATE_LIMITED"
  message := "Too many requests."
  correlationId := request.correlationId

/-- A window that a sweep drops. -/
def windowExpired (now : ℕ) (value : RateWindow) : Bool := decide (value.expiresAt ≤ now)

/-- `use` (lines 21-81): the windows and the reply. -/
def use (windows : RateWindows) (request : RateRequest) : RateWindows × RateReply :=
  let window := counted windows request
  (windows.store (windowExpired request.now) maximumEntries window,
    ⟨toString (request.bucket.limit - window.count),
      if request.bucket.limit < window.count then some (violation request window.count)
      else none⟩)

/-- The windows after some requests. -/
def windowsAfter (windows : RateWindows) (requests : List RateRequest) : RateWindows :=
  requests.foldl (fun windows request => (use windows request).1) windows

/-- The request is of the address and the bucket of the other one. -/
def SameClient (who request : RateRequest) : Prop :=
  request.address = who.address ∧ request.bucket = who.bucket

instance (who request : RateRequest) : Decidable (SameClient who request) :=
  inferInstanceAs (Decidable (_ ∧ _))

/-- How many of the requests that are of the address and the bucket are let through. -/
def letThrough (who : RateRequest) : RateWindows → List RateRequest → ℕ
  | _, [] => 0
  | windows, request :: requests =>
    (if SameClient who request ∧ (use windows request).2.violation.isNone then 1 else 0) +
      letThrough who (use windows request).1 requests

/-- The request opens a window. -/
def Opens (windows : RateWindows) (request : RateRequest) : Prop := current windows request = none

instance (windows : RateWindows) (request : RateRequest) : Decidable (Opens windows request) :=
  inferInstanceAs (Decidable (_ = none))

/-- Each of the requests comes before the window that `opening` opens expires, and finds a window
    of that address and bucket in the map. -/
def Keeps (windows : RateWindows) (opening : RateRequest) (requests : List RateRequest) : Prop :=
  ∀ earlier request later, requests = earlier ++ request :: later →
    request.now < opening.now + RATE_LIMIT_WINDOW_MS ∧
      ((windowsAfter windows (opening :: earlier)).find opening.key).isSome = true

/-! ## The map -/

section Windows

variable {windows : RateWindows} {request who opening : RateRequest} {requests : List RateRequest}

theorem use_fst : (use windows request).1 =
    windows.store (windowExpired request.now) maximumEntries (counted windows request) := rfl

theorem windowsAfter_append {earlier : List RateRequest} :
    windowsAfter windows (earlier ++ requests) =
      windowsAfter (windowsAfter windows earlier) requests :=
  List.foldl_append

theorem windowsAfter_snoc : windowsAfter windows (requests ++ [request]) =
    (use (windowsAfter windows requests) request).1 := by
  rw [windowsAfter_append]
  rfl

/-- The map holds at most `maximumEntries` windows after each request. -/
theorem windowsAfter_length_le (h : windows.rows.length ≤ maximumEntries) :
    (windowsAfter windows requests).rows.length ≤ maximumEntries := by
  induction requests generalizing windows with
  | nil => exact h
  | cons request requests ih => exact ih Table.length_store_le

variable {window : RateWindow} {k : String}

theorem key_of_current (h : current windows request = some window) :
    window.key = request.key :=
  Table.key_of_find (Option.filter_eq_some_iff.mp h).1

theorem key_counted : key (counted windows request) = request.key := by
  show (counted windows request).key = request.key
  unfold counted
  cases h : current windows request with
  | none => rfl
  | some window =>
    have hkey : window.key = request.key := key_of_current h
    exact hkey

theorem counted_of_opens (h : Opens windows request) :
    counted windows request = ⟨request.key, 1, request.now + RATE_LIMIT_WINDOW_MS⟩ := by
  rw [counted, h]
  rfl

theorem counted_of_find (h : windows.find request.key = some window)
    (hlive : request.now < window.expiresAt) :
    counted windows request = { window with count := window.count + 1 } := by
  have hcurrent : current windows request = some window := by
    rw [current, h, Option.filter_some, if_pos (decide_eq_true hlive)]
  rw [counted, hcurrent]
  rfl

/-- After a request its window, if it is there, is the one with the request counted. -/
theorem find_use_self (h : (use windows request).1.find request.key = some window) :
    window = counted windows request := by
  have hkey : key (counted windows request) = request.key := key_counted
  rw [← hkey] at h
  exact Table.find_store_self h

theorem find_use_ne (hk : request.key ≠ k)
    (h : (use windows request).1.find k = some window) : windows.find k = some window :=
  Table.find_store_ne_of_some (by rwa [key_counted]) h

/-- A window that has not expired is dropped only by a request that opens a window for another
    address or bucket when the map is full. -/
theorem evicted_of_live
    (hlength : windows.rows.length ≤ maximumEntries) (h : windows.find k = some window)
    (hlive : request.now < window.expiresAt) (hgone : (use windows request).1.find k = none) :
    windows.rows.length = maximumEntries ∧ windows.find request.key = none := by
  have hkey : key (counted windows request) = request.key := key_counted
  rw [use_fst] at hgone
  by_cases hk : request.key = k
  · rw [← hk, ← hkey] at h
    rw [Table.store_of_some hlength h, Table.find_set, if_pos (hkey.trans hk)] at hgone
    cases hgone
  · have hkept : windowExpired request.now window = false := decide_eq_false (not_le.mpr hlive)
    rcases Table.find_store_of_live hlength (hkey.trans_ne hk) h hkept with hfind | ⟨hfull, hnew, -⟩
    · rw [hfind] at hgone
      cases hgone
    · exact ⟨hfull, by rwa [hkey] at hnew⟩

end Windows

/-! ## Counting -/

section Counting

variable {windows : RateWindows} {request who opening : RateRequest}
  {requests earlier : List RateRequest}

theorem SameClient.key_eq (h : SameClient who request) : request.key = who.key := by
  rw [RateRequest.key, RateRequest.key, h.1, h.2]

theorem letThrough_append : letThrough who windows (earlier ++ requests) =
    letThrough who windows earlier + letThrough who (windowsAfter windows earlier) requests := by
  induction earlier generalizing windows with
  | nil => rw [List.nil_append, letThrough, Nat.zero_add]; rfl
  | cons request earlier ih =>
    rw [List.cons_append, letThrough, letThrough, ih, Nat.add_assoc]
    rfl

theorem letThrough_singleton : letThrough who windows [request] =
    if SameClient who request ∧ (use windows request).2.violation.isNone then 1 else 0 :=
  Nat.add_zero _

/-- How many of the requests are counted in the window of `who`. -/
def hits (who : RateRequest) (requests : List RateRequest) : ℕ :=
  requests.countP fun request => decide (request.key = who.key)

theorem letThrough_le_hits : letThrough who windows requests ≤ hits who requests := by
  induction requests generalizing windows with
  | nil => exact Nat.zero_le _
  | cons request requests ih =>
    have hrest : letThrough who (use windows request).1 requests ≤ hits who requests := ih
    rw [letThrough, hits, List.countP_cons]
    by_cases hsame : SameClient who request
    · rw [if_pos (decide_eq_true hsame.key_eq)]
      unfold hits at hrest
      split <;> omega
    · rw [if_neg fun h => hsame h.1]
      unfold hits at hrest
      omega

theorem Keeps.left (h : Keeps windows opening (earlier ++ requests)) :
    Keeps windows opening earlier := fun front request back heq =>
  h front request (back ++ requests) (by rw [heq, List.append_assoc, List.cons_append])

theorem Keeps.last (h : Keeps windows opening (requests ++ [request])) :
    request.now < opening.now + RATE_LIMIT_WINDOW_MS ∧
      ((windowsAfter windows (opening :: requests)).find opening.key).isSome = true :=
  h requests request [] rfl

/-- As long as the window is there, it is the one that `opening` opened, with all its requests
    counted. -/
theorem window_of_keeps (hopens : Opens windows opening) (h : Keeps windows opening requests)
    {window : RateWindow}
    (hfind : (windowsAfter windows (opening :: requests)).find opening.key = some window) :
    window.expiresAt = opening.now + RATE_LIMIT_WINDOW_MS ∧
      window.count = hits opening (opening :: requests) := by
  induction requests using List.reverseRecOn generalizing window with
  | nil =>
    rw [find_use_self hfind, counted_of_opens hopens]
    simp [hits]
  | append_singleton requests request ih =>
    obtain ⟨hnow, hsome⟩ := h.last
    obtain ⟨before, hbefore⟩ := Option.isSome_iff_exists.mp hsome
    obtain ⟨hexpires, hcount⟩ := ih h.left hbefore
    have hhits : hits opening (opening :: (requests ++ [request])) =
        hits opening (opening :: requests) + if request.key = opening.key then 1 else 0 := by
      rw [hits, ← List.cons_append, List.countP_append]
      simp [hits, List.countP_cons]
    rw [← List.cons_append, windowsAfter_snoc] at hfind
    rw [hhits]
    by_cases hkey : request.key = opening.key
    · rw [← hkey] at hfind hbefore
      rw [find_use_self hfind, counted_of_find hbefore (by rw [hexpires]; exact hnow), if_pos hkey]
      exact ⟨hexpires, by rw [hcount]⟩
    · rw [hbefore.symm.trans (find_use_ne hkey hfind) |> Option.some.inj |>.symm, if_neg hkey]
      exact ⟨hexpires, hcount⟩

theorem le_limit_of_through (h : (use windows request).2.violation.isNone = true) :
    (counted windows request).count ≤ request.bucket.limit := by
  unfold use at h
  dsimp only at h
  split at h
  · cases h
  · omega

/-- At most `limit` requests are let through while the window is in the map. -/
theorem letThrough_le_of_keeps (hopens : Opens windows opening)
    (h : Keeps windows opening requests) :
    letThrough opening windows (opening :: requests) ≤ opening.bucket.limit := by
  induction requests using List.reverseRecOn with
  | nil =>
    rw [letThrough_singleton]
    split
    next hthrough =>
      have hle := le_limit_of_through hthrough.2
      rwa [counted_of_opens hopens] at hle
    · exact Nat.zero_le _
  | append_singleton requests request ih =>
    rw [← List.cons_append, letThrough_append, letThrough_singleton]
    split
    next hthrough =>
      -- the request is counted behind all the others of its window
      obtain ⟨hnow, hsome⟩ := h.last
      obtain ⟨window, hwindow⟩ := Option.isSome_iff_exists.mp hsome
      obtain ⟨hexpires, hcount⟩ := window_of_keeps hopens h.left hwindow
      have hle := le_limit_of_through hthrough.2
      rw [← hthrough.1.key_eq] at hwindow
      rw [counted_of_find hwindow (by rw [hexpires]; exact hnow), hthrough.1.2, hcount] at hle
      exact le_trans (Nat.add_le_add_right letThrough_le_hits 1) hle
    · exact ih h.left

end Counting

/-! ## The bounds -/

/-- After any requests the map holds at most `maximumEntries` windows, at most `limit` requests of
    an address in a bucket are let through while a window is in the map and has not expired, and
    a window that has not expired is dropped only by a request that opens a window when the map
    is full. -/
theorem rate_limit_bounds (requests : List RateRequest) :
    (windowsAfter Table.empty requests).rows.length ≤ maximumEntries ∧
      (∀ opening during, Opens (windowsAfter Table.empty requests) opening →
        Keeps (windowsAfter Table.empty requests) opening during →
          letThrough opening (windowsAfter Table.empty requests) (opening :: during) ≤
            opening.bucket.limit) ∧
      ∀ request k window, (windowsAfter Table.empty requests).find k = some window →
        request.now < window.expiresAt →
          (use (windowsAfter Table.empty requests) request).1.find k = none →
            (windowsAfter Table.empty requests).rows.length = maximumEntries ∧
              (windowsAfter Table.empty requests).find request.key = none := by
  have hlength : (windowsAfter Table.empty requests).rows.length ≤ maximumEntries :=
    windowsAfter_length_le (Nat.zero_le _)
  exact ⟨hlength, fun opening during hopens hkeeps => letThrough_le_of_keeps hopens hkeeps,
    fun request k window hfind hlive hgone => evicted_of_live hlength hfind hlive hgone⟩

/-- A sign-in from an address. -/
def signIn (ip : String) : RateRequest :=
  ⟨0, some ip, "/api/v1/auth/fallback/login", "/fallback/login", "POST", "c-1"⟩

/-- Two sign-ins from one address behind one from another. -/
theorem rate_limit_bounds_two :
    letThrough (signIn "198.51.100.7") (windowsAfter Table.empty [signIn "198.51.100.8"])
      [signIn "198.51.100.7", signIn "198.51.100.7"] ≤ 40 := by
  refine (rate_limit_bounds [signIn "198.51.100.8"]).2.1 _ [signIn "198.51.100.7"] (by decide) ?_
  intro earlier request later heq
  cases earlier with
  | nil =>
    obtain ⟨rfl, -⟩ := List.cons.inj heq
    decide
  | cons other earlier => simp at heq

/-! ## Floods -/

section Flood

variable {windows : RateWindows} {request : RateRequest} {requests : List RateRequest}

theorem map_key_opened : (requests.map fun request =>
    (⟨request.key, 1, request.now + RATE_LIMIT_WINDOW_MS⟩ : RateWindow)).map key =
      requests.map RateRequest.key := by
  rw [List.map_map]
  rfl

/-- As long as there is room, requests with new keys add a window each. -/
theorem rows_flood (hnew : ∀ request ∈ requests, windows.find request.key = none)
    (hnodup : (requests.map RateRequest.key).Nodup)
    (hroom : windows.rows.length + requests.length ≤ maximumEntries) :
    (windowsAfter windows requests).rows = windows.rows ++
      requests.map fun request => ⟨request.key, 1, request.now + RATE_LIMIT_WINDOW_MS⟩ := by
  induction requests generalizing windows with
  | nil => simp [windowsAfter]
  | cons request requests ih =>
    rw [List.length_cons] at hroom
    obtain ⟨hfirst, hothers⟩ := List.forall_mem_cons.mp hnew
    obtain ⟨hdistinct, hrest⟩ := List.nodup_cons.mp hnodup
    have hopens : Opens windows request := by rw [Opens, current, hfirst]; rfl
    have hfree : windows.find (key (counted windows request)) = none := by rwa [key_counted]
    have hrows : (use windows request).1.rows =
        windows.rows ++ [⟨request.key, 1, request.now + RATE_LIMIT_WINDOW_MS⟩] := by
      rw [use_fst, Table.rows_store_of_room hfree (by omega), counted_of_opens hopens]
    have hlater : ∀ other ∈ requests, (use windows request).1.find other.key = none := by
      intro other hother
      have hne : request.key ≠ other.key := fun heq =>
        hdistinct (by rw [heq]; exact List.mem_map_of_mem hother)
      have hfind := Table.find_eq_none.mp (hothers other hother)
      rw [Table.find_eq_none, hrows, List.map_append, List.mem_append, not_or]
      exact ⟨hfind, by simpa [key] using hne.symm⟩
    have hwindows := ih hlater hrest (by rw [hrows, List.length_append]; simp; omega)
    rw [windowsAfter, List.foldl_cons]
    rw [windowsAfter] at hwindows
    rw [hwindows, hrows]
    simp

/-- In a full map, a request with a new key drops the window that stands first. -/
theorem find_first_of_full {window : RateWindow} {rest : List RateWindow}
    (hrows : windows.rows = window :: rest) (hfull : windows.rows.length = maximumEntries)
    (hnew : windows.find request.key = none) : (use windows request).1.find window.key = none := by
  have hfree : windows.find (key (counted windows request)) = none := by rwa [key_counted]
  have hkeys := windows.nodup_keys
  rw [hrows, List.map_cons, List.nodup_cons] at hkeys
  have hfind := Table.find_eq_none.mp hnew
  rw [hrows, List.map_cons, List.mem_cons, not_or] at hfind
  rw [Table.find_eq_none, use_fst, Table.rows_store_of_full hfree hrows hfull]
  intro hmem
  obtain ⟨other, hother, hkey⟩ := List.mem_map.mp hmem
  rcases List.mem_append.mp (List.mem_filter.mp hother).1 with hother | hother
  · have hsame : key window = key other := hkey.symm
    exact hkeys.1 (by rw [hsame]; exact List.mem_map_of_mem hother)
  · rw [List.mem_singleton.mp hother, key_counted] at hkey
    exact hfind.1 hkey

end Flood

/-- Sign-ins from the addresses of one network. -/
def flood (n : ℕ) : List RateRequest :=
  (List.range n).map fun i => signIn ("2001:db8::" ++ toString i)

theorem key_signIn {ip : String} (h : ip ≠ "") : (signIn ip).key = ip ++ ":auth:fallback" := by
  have haddress : (signIn ip).address = ip := if_neg h
  have hbucket : (signIn ip).bucket.name = "auth:fallback" := by
    show (targetBucket "/api/v1/auth/fallback/login").name = "auth:fallback"
    decide
  rw [RateRequest.key, haddress, hbucket, String.append_assoc]
  rfl

theorem key_flood (i : ℕ) : (signIn ("2001:db8::" ++ toString i)).key =
    "2001:db8::" ++ toString i ++ ":auth:fallback" := by
  refine key_signIn ?_
  intro h
  have hlist := congrArg String.toList h
  rw [String.toList_append] at hlist
  cases hlist

theorem nodup_flood (n : ℕ) : ((flood n).map RateRequest.key).Nodup := by
  rw [flood, List.map_map]
  refine List.Nodup.map ?_ List.nodup_range
  intro i j hkey
  simp only [Function.comp_apply, key_flood] at hkey
  have hlist := congrArg String.toList hkey
  simp only [String.toList_append, List.append_cancel_right_eq, List.append_cancel_left_eq] at hlist
  exact Nat.repr_inj.mp (String.toList_injective hlist)

/-- The customer whose sign-ins are counted. -/
def customer : RateRequest := signIn "198.51.100.7"

theorem customer_window : (windowsAfter Table.empty (List.replicate 40 customer)).rows =
    [⟨customer.key, 40, RATE_LIMIT_WINDOW_MS⟩] := by
  decide +kernel

theorem customer_letThrough :
    letThrough customer Table.empty (List.replicate 40 customer) = 40 := by
  decide +kernel

theorem flood_succ (n : ℕ) :
    flood (n + 1) = flood n ++ [signIn ("2001:db8::" ++ toString n)] := by
  rw [flood, List.range_succ, List.map_append]
  rfl

theorem key_flood_ne (i : ℕ) : (signIn ("2001:db8::" ++ toString i)).key ≠ customer.key := by
  intro heq
  have hlist := congrArg String.toList heq
  rw [key_flood, customer, key_signIn (by decide)] at hlist
  simp only [String.toList_append] at hlist
  cases hlist

/-- A flood from as many addresses as the map has entries drops the window of the customer. -/
theorem find_customer_flood {n : ℕ} (hn : n + 1 = maximumEntries) :
    (windowsAfter Table.empty (List.replicate 40 customer ++ flood (n + 1))).find customer.key =
      none := by
  have hwindows : ∀ request ∈ flood n,
      (windowsAfter Table.empty (List.replicate 40 customer)).find request.key = none := by
    intro request hmem
    obtain ⟨i, -, rfl⟩ := List.mem_map.mp hmem
    rw [Table.find_eq_none, customer_window]
    simpa [key] using key_flood_ne i
  have hlength : (flood n).length = n := by rw [flood, List.length_map, List.length_range]
  have hrows := rows_flood hwindows (nodup_flood n)
    (by rw [customer_window, hlength, List.length_singleton]; omega)
  rw [customer_window, List.singleton_append] at hrows
  have hlast : (signIn ("2001:db8::" ++ toString n)).key ∉ (flood n).map RateRequest.key := by
    have hnodup := nodup_flood (n + 1)
    rw [flood_succ, List.map_append, List.map_singleton, List.nodup_append] at hnodup
    intro hmem
    exact hnodup.2.2 _ hmem _ (List.mem_singleton_self _) rfl
  rw [flood_succ, windowsAfter_append, windowsAfter_snoc]
  refine find_first_of_full hrows ?_ ?_
  · rw [hrows, List.length_cons, List.length_map, hlength, hn]
  · rw [Table.find_eq_none, hrows, List.map_cons, List.mem_cons, not_or, map_key_opened]
    exact ⟨key_flood_ne n, hlast⟩

/-- A flood in the life of the customer's window: forty sign-ins are let through, the window is
    dropped, and the next sign-in is let through too. -/
theorem flooded_window : ¬ ∀ (before : List RateRequest) (opening : RateRequest)
    (during : List RateRequest),
      (before ++ opening :: during).Pairwise (fun request later => request.now ≤ later.now) →
        Opens (windowsAfter Table.empty before) opening →
          (∀ request ∈ during, request.now < opening.now + RATE_LIMIT_WINDOW_MS) →
            letThrough opening (windowsAfter Table.empty before) (opening :: during) ≤
              opening.bucket.limit := by
  intro h
  have hnow : ∀ request ∈ List.replicate 40 customer ++ (flood 10000 ++ [customer]),
      request.now = 0 := by
    intro request hmem
    rcases List.mem_append.mp hmem with hmem | hmem
    · rw [List.eq_of_mem_replicate hmem]
      rfl
    · rcases List.mem_append.mp hmem with hmem | hmem
      · obtain ⟨i, -, rfl⟩ := List.mem_map.mp hmem
        rfl
      · rw [List.mem_singleton.mp hmem]
        rfl
  have hrun : List.replicate 40 customer ++ (flood 10000 ++ [customer]) =
      customer :: (List.replicate 39 customer ++ (flood 10000 ++ [customer])) := by
    rw [List.replicate_succ, List.cons_append]
  have hsorted : (List.replicate 40 customer ++ (flood 10000 ++ [customer])).Pairwise
      fun request later => request.now ≤ later.now := by
    refine List.pairwise_of_forall_mem_list fun request hrequest later hlater => ?_
    rw [hnow request hrequest]
    exact Nat.zero_le _
  have hlast : letThrough customer (windowsAfter Table.empty
      (List.replicate 40 customer ++ flood 10000)) [customer] = 1 := by
    have hopens : Opens (windowsAfter Table.empty (List.replicate 40 customer ++ flood 10000))
        customer := by
      rw [Opens, current, find_customer_flood rfl]
      rfl
    have hlimit : ¬ customer.bucket.limit < 1 := by decide
    rw [letThrough_singleton, use, counted_of_opens hopens]
    dsimp only
    rw [if_neg hlimit, if_pos ⟨⟨rfl, rfl⟩, rfl⟩]
  have hle := h [] customer (List.replicate 39 customer ++ (flood 10000 ++ [customer]))
    (by rw [List.nil_append, ← hrun]; exact hsorted) (by decide)
    (fun request hmem => by
      rw [hnow request (by rw [hrun]; exact List.mem_cons_of_mem _ hmem)]
      decide)
  have hstart : windowsAfter Table.empty [] = Table.empty := rfl
  have hlimit : customer.bucket.limit = 40 := by decide
  rw [hstart, ← hrun, ← List.append_assoc, letThrough_append, hlast, letThrough_append,
    customer_letThrough, hlimit] at hle
  omega

end AegisShield.Gateway
