import AegisShield.Common.Binary64
import AegisShield.Sabcl.Seal

/-!
# Views of a keyring during rotation

`peer`, `activePeerFor` and `rotationState` (`keyring.ts`, lines 176-254) filter and order the
same peers separately. Versions are compared as JavaScript numbers.

Results:
* `activePeerFor_eq`: the active peer is the first live peer with the greatest version, as a
  JavaScript number.
* `rotation_views_agree_iff`: the views agree exactly when, of the live peers whose versions round
  to the greatest number, the first one has the greatest version.
* `older_key_active`: from `2 ^ 53` on two versions can be one number.
-/

namespace AegisShield.Sabcl

open Common

/-! ## Model (`keyring.ts`) -/

/-- What follows the last `.v`. -/
def afterLastDotV : List Char → Option (List Char)
  | '.' :: 'v' :: rest => some ((afterLastDotV rest).getD rest)
  | _ :: rest => afterLastDotV rest
  | [] => none

/-- The version that a key identifier names. Identifiers have passed `sabclKeyIdSchema`, so that
    digits follow the last `.v`. -/
def versionNumber (keyId : String) : ℕ :=
  ((afterLastDotV keyId.toList).getD []).foldl (fun n c => 10 * n + (c.toNat - '0'.toNat)) 0

/-- `versionOfKeyId` (lines 61-63): `Number` of the digits. -/
def versionOfKeyId (keyId : String) : Binary64.Number := Binary64.nearest (versionNumber keyId)

/-- The filter of `accepted` (lines 239-243), and of the candidates (lines 200-202). -/
def live (now : ℕ) (peer : SabclPublicIdentity) : Bool :=
  !peer.revoked && peer.notAfter.all fun t => decide (now ≤ t)

/-- The filter of `revoked` (lines 247-249). -/
def retired (now : ℕ) (peer : SabclPublicIdentity) : Bool :=
  peer.revoked || expired peer.notAfter now

/-- The comparison of line 204: `a` does not come after `b`. -/
def newerFirst (a b : SabclPublicIdentity) : Prop :=
  (versionOfKeyId b.keyId).le (versionOfKeyId a.keyId) = true

instance decidableRelNewerFirst : DecidableRel newerFirst := fun _ _ =>
  inferInstanceAs (Decidable (_ = true))

namespace SabclKeyring

variable (keyring : SabclKeyring)

/-- The candidates of `activePeerFor`, before they are sorted. -/
def candidates (service : String) (now : ℕ) : List SabclPublicIdentity :=
  keyring.peers.filter fun peer => peer.service == service && live now peer

/-- `activePeerFor` (lines 196-213). -/
def activePeerFor (service : String) (now : ℕ) : Except Thrown SabclPublicIdentity :=
  match ((keyring.candidates service now).insertionSort newerFirst).head? with
  | none => fail .SABCL_UNKNOWN_RECIPIENT ("no live key for service " ++ service)
  | some active => .ok active

end SabclKeyring

/-- What `rotationState` tells about a service. -/
structure RotationEntry where
  service : String
  active : Option String
  accepted : List String
  revoked : List String
  deriving DecidableEq

/-- `sort()` of identifiers, which are ASCII. -/
def sorted (ids : List String) : List String := ids.insertionSort (· ≤ ·)

namespace SabclKeyring

variable (keyring : SabclKeyring)

/-- The entry of a service (lines 229-252). -/
def rotationEntry (now : ℕ) (service : String) : RotationEntry :=
  let all := keyring.peers.filter fun peer => peer.service == service
  { service := service
    active := ((keyring.activePeerFor service now).toOption).map SabclPublicIdentity.keyId
    accepted := sorted ((all.filter (live now)).map SabclPublicIdentity.keyId)
    revoked := sorted ((all.filter (retired now)).map SabclPublicIdentity.keyId) }

/-- `rotationState` (lines 221-254). -/
def rotationState (now : ℕ) : List RotationEntry :=
  (sorted (keyring.peers.map SabclPublicIdentity.service).dedup).map (keyring.rotationEntry now)

end SabclKeyring

/-! ## The head of a stable sort -/

/-- The head of a stable sort is the first element that need not come after any other. -/
theorem head?_insertionSort {α : Type*} {r : α → α → Prop} [DecidableRel r]
    (htotal : ∀ a b, r a b ∨ r b a) (htrans : ∀ a b c, r a b → r b c → r a c) (l : List α) :
    (l.insertionSort r).head? = l.find? fun x => decide (∀ y ∈ l, r x y) := by
  induction l with
  | nil => rfl
  | cons a l ih =>
    have hrefl : r a a := (htotal a a).elim id id
    rw [List.insertionSort_cons]
    cases hsorted : l.insertionSort r with
    | nil =>
      have hl : l = [] := by simpa [hsorted] using (List.perm_insertionSort r l).symm
      subst hl
      simp [hrefl]
    | cons b rest =>
      rw [hsorted, List.head?_cons] at ih
      have hb := List.find?_some ih.symm
      rw [decide_eq_true_eq] at hb
      rw [List.orderedInsert_cons]
      by_cases hab : r a b
      · have hfirst : ∀ y ∈ a :: l, r a y := by
          intro y hy
          rcases List.mem_cons.mp hy with rfl | hy
          · exact hrefl
          · exact htrans a b y hab (hb y hy)
        rw [if_pos hab, List.find?_cons_of_pos (by simpa using hfirst)]
        rfl
      · have hbl : b ∈ l := List.mem_of_find?_eq_some ih.symm
        have hba : r b a := (htotal a b).resolve_left hab
        rw [if_neg hab, List.head?_cons, ih, List.find?_cons, decide_eq_false fun h =>
          hab (h b (List.mem_cons_of_mem a hbl))]
        refine List.find?_congr fun x _ => decide_eq_decide.mpr ⟨fun h y hy => ?_, fun h y hy =>
          h y (List.mem_cons_of_mem a hy)⟩
        rcases List.mem_cons.mp hy with rfl | hy
        · exact htrans x b _ (h b hbl) hba
        · exact h y hy

/-! ## The active peer -/

theorem newerFirst_total (a b : SabclPublicIdentity) : newerFirst a b ∨ newerFirst b a :=
  (Binary64.number_le_total _ _).symm

theorem newerFirst_trans (a b c : SabclPublicIdentity) (hab : newerFirst a b)
    (hbc : newerFirst b c) : newerFirst a c := Binary64.number_le_trans hbc hab

/-- Rounding does not turn versions round. -/
theorem newerFirst_of_le {a b : SabclPublicIdentity}
    (h : versionNumber b.keyId ≤ versionNumber a.keyId) : newerFirst a b :=
  Binary64.nearest_mono (by exact_mod_cast h)

theorem live_iff_not_retired {now : ℕ} {peer : SabclPublicIdentity} :
    live now peer = !retired now peer := by
  unfold live retired expired
  cases peer.notAfter with
  | none => simp
  | some t =>
    cases hrevoked : peer.revoked with
    | true => rfl
    | false =>
      show decide (now ≤ t) = !decide (now > t)
      rw [← decide_not, decide_eq_decide]
      exact Nat.not_lt.symm

namespace SabclKeyring

variable {keyring : SabclKeyring} {service : String} {now : ℕ}

variable {peer active : SabclPublicIdentity} {keyId : String}

theorem mem_candidates :
    peer ∈ keyring.candidates service now ↔
      peer ∈ keyring.peers ∧ peer.service = service ∧ live now peer = true := by
  simp [candidates]

/-- The active peer is the first candidate with the greatest version, as a JavaScript number. -/
theorem activePeerFor_eq :
    (keyring.activePeerFor service now).toOption =
      (keyring.candidates service now).find? fun peer =>
        decide (∀ other ∈ keyring.candidates service now, newerFirst peer other) := by
  rw [← head?_insertionSort newerFirst_total newerFirst_trans]
  unfold activePeerFor
  cases ((keyring.candidates service now).insertionSort newerFirst).head? <;> rfl

theorem activePeerFor_ok :
    keyring.activePeerFor service now = .ok active ↔
      (keyring.activePeerFor service now).toOption = some active := by
  cases keyring.activePeerFor service now with
  | error | ok => simp [Except.toOption]

theorem mem_candidates_of_active (h : keyring.activePeerFor service now = .ok active) :
    active ∈ keyring.candidates service now := by
  rw [activePeerFor_ok, activePeerFor_eq] at h
  exact List.mem_of_find?_eq_some h

theorem exists_greatest (h : keyring.candidates service now ≠ []) :
    ∃ peer ∈ keyring.candidates service now, ∀ other ∈ keyring.candidates service now,
      versionNumber other.keyId ≤ versionNumber peer.keyId := by
  obtain ⟨peer, hpeer, hmax⟩ := Finset.exists_max_image
    (keyring.candidates service now).toFinset (fun peer => versionNumber peer.keyId)
    (List.toFinset_nonempty_iff _ |>.mpr h)
  exact ⟨peer, List.mem_toFinset.mp hpeer, fun other hother =>
    hmax other (List.mem_toFinset.mpr hother)⟩

/-- Beside a peer with the greatest version, the active peer is the first one whose version is
    the same JavaScript number. -/
theorem activePeerFor_of_greatest (hpeer : peer ∈ keyring.candidates service now)
    (hgreatest : ∀ other ∈ keyring.candidates service now,
      versionNumber other.keyId ≤ versionNumber peer.keyId) :
    (keyring.activePeerFor service now).toOption = (keyring.candidates service now).find?
      fun other => decide (versionOfKeyId other.keyId = versionOfKeyId peer.keyId) := by
  rw [activePeerFor_eq]
  refine List.find?_congr fun other hother => decide_eq_decide.mpr ⟨fun hfirst => ?_, fun heq => ?_⟩
  · exact Binary64.number_le_antisymm (newerFirst_of_le (hgreatest other hother))
      (hfirst peer hpeer)
  · intro third hthird
    unfold newerFirst
    rw [heq]
    exact newerFirst_of_le (hgreatest third hthird)

theorem isSome_active_iff :
    (keyring.activePeerFor service now).toOption.isSome = true ↔
      keyring.candidates service now ≠ [] := by
  constructor
  · intro h hnil
    rw [activePeerFor_eq, hnil] at h
    cases h
  · intro h
    obtain ⟨peer, hpeer, hgreatest⟩ := exists_greatest h
    rw [activePeerFor_of_greatest hpeer hgreatest, List.find?_isSome]
    exact ⟨peer, hpeer, decide_eq_true rfl⟩

/-! ## The entries of `rotationState` -/

theorem mem_sorted {ids : List String} {id : String} : id ∈ sorted ids ↔ id ∈ ids :=
  (List.perm_insertionSort _ ids).mem_iff

theorem mem_rotationState {entry : RotationEntry} :
    entry ∈ keyring.rotationState now ↔
      ∃ peer ∈ keyring.peers, keyring.rotationEntry now peer.service = entry := by
  simp [rotationState, mem_sorted]

theorem mem_accepted :
    keyId ∈ (keyring.rotationEntry now service).accepted ↔
      ∃ peer ∈ keyring.candidates service now, peer.keyId = keyId := by
  simp only [rotationEntry, mem_sorted, List.mem_map, List.mem_filter, mem_candidates, beq_iff_eq,
    and_assoc]

/-- `peer` finds a key exactly when a live peer has it. -/
theorem peer_eq_ok :
    keyring.peer keyId now = .ok peer ↔
      peer ∈ keyring.peers ∧ live now peer = true ∧ peer.keyId = keyId := by
  constructor
  · intro h
    unfold SabclKeyring.peer at h
    split at h
    · cases h
    next found hfound =>
      split_ifs at h with hrevoked hexpired
      · cases h
      · cases h
      · cases h
        refine ⟨List.mem_of_find?_eq_some hfound, ?_, by simpa using List.find?_some hfound⟩
        rw [live_iff_not_retired, retired, Bool.not_eq_true', Bool.or_eq_false_iff]
        exact ⟨by simpa using hrevoked, by simpa using hexpired⟩
  · rintro ⟨hmem, hlive, rfl⟩
    rw [live_iff_not_retired, retired, Bool.not_eq_true', Bool.or_eq_false_iff] at hlive
    unfold SabclKeyring.peer
    rw [find?_keyId hmem]
    dsimp only
    rw [if_neg (by simp [hlive.1]), if_neg (by simp [hlive.2])]

/-- The key identifiers of a service. -/
def keyIds (service : String) : List String :=
  (keyring.peers.filter fun peer => peer.service == service).map SabclPublicIdentity.keyId

theorem nodup_keyIds : (keyring.keyIds service).Nodup :=
  keyring.distinct.sublist (List.filter_sublist.map _)

theorem accepted_append_revoked :
    ((keyring.rotationEntry now service).accepted ++
      (keyring.rotationEntry now service).revoked).Perm (keyring.keyIds service) := by
  have hretired : ∀ peers : List SabclPublicIdentity,
      peers.filter (retired now) = peers.filter fun peer => !live now peer := by
    intro peers
    refine List.filter_congr fun peer _ => ?_
    rw [live_iff_not_retired, Bool.not_not]
  have hsorted : ∀ ids : List String, (sorted ids).Perm ids := List.perm_insertionSort _
  refine ((hsorted _).append (hsorted _)).trans ?_
  rw [hretired, ← List.map_append]
  exact (List.filter_append_perm (live now) _).map _

end SabclKeyring

/-! ## Agreement -/

/-- The views of a keyring agree. -/
structure ViewsAgree (keyring : SabclKeyring) (now : ℕ) : Prop where
  /-- The active peer of a service is a live peer of the service. -/
  live : ∀ service active, keyring.activePeerFor service now = .ok active →
    active ∈ keyring.peers ∧ active.service = service ∧ live now active = true
  /-- No live peer of the service has a greater version. -/
  greatest : ∀ service active, keyring.activePeerFor service now = .ok active →
    ∀ peer ∈ keyring.peers, peer.service = service → Sabcl.live now peer = true →
      versionNumber peer.keyId ≤ versionNumber active.keyId
  /-- Every service has one entry. -/
  services : ((keyring.rotationState now).map RotationEntry.service).Nodup ∧
    ∀ peer ∈ keyring.peers, ∃ entry ∈ keyring.rotationState now, entry.service = peer.service
  /-- The accepted and the revoked keys are the keys of the service, each once. -/
  partition : ∀ entry ∈ keyring.rotationState now,
    (entry.accepted ++ entry.revoked).Perm (keyring.keyIds entry.service) ∧
      (entry.accepted ++ entry.revoked).Nodup
  /-- The active key of an entry is that of the active peer, and is accepted. -/
  active : ∀ entry ∈ keyring.rotationState now,
    entry.active =
        (keyring.activePeerFor entry.service now).toOption.map SabclPublicIdentity.keyId ∧
      ∀ keyId, entry.active = some keyId → keyId ∈ entry.accepted
  /-- There is an active key exactly when some key is accepted. -/
  exists_active : ∀ entry ∈ keyring.rotationState now,
    entry.active.isSome = true ↔ entry.accepted ≠ []
  /-- A key is accepted exactly when `peer` finds it. -/
  resolves : ∀ keyId, (∃ entry ∈ keyring.rotationState now, keyId ∈ entry.accepted) ↔
    ∃ peer, keyring.peer keyId now = .ok peer

/-- Of the live peers of the service whose version is the same JavaScript number as the greatest
    one, the first one has the greatest version. -/
def FirstIsGreatest (keyring : SabclKeyring) (service : String) (now : ℕ) : Prop :=
  ∀ peer ∈ keyring.candidates service now,
    (∀ other ∈ keyring.candidates service now,
      versionNumber other.keyId ≤ versionNumber peer.keyId) →
    ∀ first, (keyring.candidates service now).find?
      (fun other => decide (versionOfKeyId other.keyId = versionOfKeyId peer.keyId)) = some first →
      versionNumber first.keyId = versionNumber peer.keyId

section Agreement

variable {keyring : SabclKeyring} {now : ℕ}

open SabclKeyring

theorem greatest_iff {service : String} :
    (∀ active, keyring.activePeerFor service now = .ok active →
      ∀ peer ∈ keyring.candidates service now,
        versionNumber peer.keyId ≤ versionNumber active.keyId) ↔
      FirstIsGreatest keyring service now := by
  constructor
  · intro h peer hpeer hgreatest first hfirst
    have hactive := activePeerFor_of_greatest hpeer hgreatest
    rw [hfirst] at hactive
    exact le_antisymm (hgreatest first (List.mem_of_find?_eq_some hfirst))
      (h first (activePeerFor_ok.mpr hactive) peer hpeer)
  · intro h active hactive peer hpeer
    obtain ⟨top, htop, hgreatest⟩ := exists_greatest (List.ne_nil_of_mem hpeer)
    rw [activePeerFor_ok, activePeerFor_of_greatest htop hgreatest] at hactive
    rw [h top htop hgreatest active hactive]
    exact hgreatest peer hpeer

variable {keyId : String}

theorem active_accepted {service : String}
    (h : (keyring.rotationEntry now service).active = some keyId) :
    keyId ∈ (keyring.rotationEntry now service).accepted := by
  obtain ⟨active, hactive, rfl⟩ := Option.map_eq_some_iff.mp h
  exact mem_accepted.mpr ⟨active, mem_candidates_of_active (activePeerFor_ok.mpr hactive), rfl⟩

theorem isSome_active_entry {service : String} :
    (keyring.rotationEntry now service).active.isSome = true ↔
      (keyring.rotationEntry now service).accepted ≠ [] := by
  show (Option.map _ _).isSome = true ↔ _
  rw [Option.isSome_map, isSome_active_iff]
  constructor
  · intro h
    obtain ⟨peer, hpeer⟩ := List.exists_mem_of_ne_nil _ h
    exact List.ne_nil_of_mem (mem_accepted.mpr ⟨peer, hpeer, rfl⟩)
  · intro h
    obtain ⟨keyId, hkeyId⟩ := List.exists_mem_of_ne_nil _ h
    obtain ⟨peer, hpeer, -⟩ := mem_accepted.mp hkeyId
    exact List.ne_nil_of_mem hpeer

theorem accepted_iff_peer :
    (∃ entry ∈ keyring.rotationState now, keyId ∈ entry.accepted) ↔
      ∃ peer, keyring.peer keyId now = .ok peer := by
  constructor
  · rintro ⟨entry, hentry, hkeyId⟩
    obtain ⟨owner, -, rfl⟩ := mem_rotationState.mp hentry
    obtain ⟨peer, hpeer, hkey⟩ := mem_accepted.mp hkeyId
    obtain ⟨hmem, -, hlive⟩ := mem_candidates.mp hpeer
    exact ⟨peer, peer_eq_ok.mpr ⟨hmem, hlive, hkey⟩⟩
  · rintro ⟨peer, hpeer⟩
    obtain ⟨hmem, hlive, hkey⟩ := peer_eq_ok.mp hpeer
    exact ⟨_, mem_rotationState.mpr ⟨peer, hmem, rfl⟩,
      mem_accepted.mpr ⟨peer, mem_candidates.mpr ⟨hmem, rfl, hlive⟩, hkey⟩⟩

theorem nodup_services : ((keyring.rotationState now).map RotationEntry.service).Nodup := by
  have hservices : (keyring.rotationState now).map RotationEntry.service =
      sorted (keyring.peers.map SabclPublicIdentity.service).dedup := by
    rw [rotationState, List.map_map]
    exact List.map_id _
  rw [hservices]
  exact (List.perm_insertionSort _ _).nodup_iff.mpr (List.nodup_dedup _)

/-- The views agree exactly when the comparison of versions as JavaScript numbers finds the
    greatest version of every service; all but the greatest version is always right. -/
theorem rotation_views_agree_iff (keyring : SabclKeyring) (now : ℕ) :
    ViewsAgree keyring now ↔ ∀ service, FirstIsGreatest keyring service now := by
  constructor
  · intro h service
    refine greatest_iff.mp fun active hactive peer hpeer => ?_
    obtain ⟨hmem, hservice, hlive⟩ := mem_candidates.mp hpeer
    exact h.greatest service active hactive peer hmem hservice hlive
  · intro h
    constructor
    case live =>
      intro service active hactive
      exact mem_candidates.mp (mem_candidates_of_active hactive)
    case greatest =>
      intro service active hactive peer hmem hservice hlive
      exact greatest_iff.mpr (h service) active hactive peer
        (mem_candidates.mpr ⟨hmem, hservice, hlive⟩)
    case services =>
      exact ⟨nodup_services, fun peer hpeer => ⟨_, mem_rotationState.mpr ⟨peer, hpeer, rfl⟩, rfl⟩⟩
    case partition =>
      intro entry hentry
      obtain ⟨owner, -, rfl⟩ := mem_rotationState.mp hentry
      exact ⟨accepted_append_revoked, accepted_append_revoked.nodup_iff.mpr nodup_keyIds⟩
    case active =>
      intro entry hentry
      obtain ⟨owner, -, rfl⟩ := mem_rotationState.mp hentry
      exact ⟨rfl, fun keyId hkeyId => active_accepted hkeyId⟩
    case exists_active =>
      intro entry hentry
      obtain ⟨owner, -, rfl⟩ := mem_rotationState.mp hentry
      exact isSome_active_entry
    case resolves =>
      intro keyId
      exact accepted_iff_peer

end Agreement

/-! ## Long versions -/

/-- A peer of the ledger with a key of the given version. -/
def ledgerPeer (version : String) : SabclPublicIdentity :=
  { keyId := "ledger.v" ++ version, service := "ledger", encryptionPublicKey := [],
    signingPublicKey := [], revoked := false, notAfter := none }

/-- The key `2 ^ 53` before its successor. -/
def longVersions : SabclKeyring where
  own := { keyId := "gateway.v1", service := "gateway", encryptionPrivateKey := [],
           signingPrivateKey := [], notAfter := none }
  peers := [ledgerPeer "9007199254740992", ledgerPeer "9007199254740993"]
  distinct := by decide

/-- `2 ^ 53 + 1` lies half-way between two numbers, of which `2 ^ 53` is the even one. -/
theorem nearest_long : Binary64.nearest ((9007199254740993 : ℕ) : ℚ) =
    Binary64.nearest ((9007199254740992 : ℕ) : ℚ) := by
  have hodd := Binary64.nearest_mul (x := 9007199254740993) (j := 1) (f := 0) (by norm_num)
    (by norm_num) (by norm_num)
  have heven := Binary64.nearest_mul (x := 9007199254740992) (j := 1) (f := 0) (by norm_num)
    (by norm_num) (by norm_num)
  have htie := Binary64.roundEven_div_tie (a := 9007199254740993) (z := 4503599627370496) (j := 1)
    (.inl (by norm_num)) (by norm_num)
  have hexact := Binary64.roundEven_div (a := 9007199254740992) (z := 4503599627370496) (j := 1)
    (by norm_num) (by norm_num)
  rw [Int.cast_ofNat] at htie hexact
  rw [zpow_zero, mul_one, htie] at hodd
  rw [zpow_zero, mul_one, hexact] at heven
  rw [Nat.cast_ofNat, Nat.cast_ofNat, hodd, heven]

/-- The older key is active. -/
theorem older_key_active : ¬ ∀ (keyring : SabclKeyring) (now : ℕ), ViewsAgree keyring now := by
  intro h
  have hsame : versionOfKeyId (ledgerPeer "9007199254740992").keyId =
      versionOfKeyId (ledgerPeer "9007199254740993").keyId := nearest_long.symm
  have hactive : longVersions.activePeerFor "ledger" 0 = .ok (ledgerPeer "9007199254740992") := by
    rw [SabclKeyring.activePeerFor_ok, SabclKeyring.activePeerFor_of_greatest
      (show ledgerPeer "9007199254740993" ∈ _ by decide) (by decide)]
    exact List.find?_cons_of_pos (by simpa using hsame)
  have hle := (h longVersions 0).greatest "ledger" _ hactive (ledgerPeer "9007199254740993")
    (by decide) rfl rfl
  exact absurd hle (by decide)

end AegisShield.Sabcl
