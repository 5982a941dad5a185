import CodexApi.Store.Credentials
import CodexApi.Lib.Transition

/-!
# Refreshing credentials

The pure part of a token refresh: when credentials need one (`credentialNeedsRefresh`) and what a
successful OAuth response makes of the current credentials (`refreshedCredential`). The payload of
a JSON web token is decoded outside this program, by a `JwtDecoder`.

The second half concerns restarts. A process start compares the `lastRefresh` of the
authentication seed with the stored one, and a refresh stores the time of the relay's clock. So
the seed undoes a rotation exactly when a start follows a refresh whose clock time was before the
seed's own `lastRefresh` (`rotationKept_iff`).
-/

namespace CodexApi

open Transition

/-! ### Errors and tokens -/

/-- The errors of a refresh. -/
inductive CredentialError
  | store (error : StoreError)
  | oauthRequest
  | oauthRejected (status : Nat)
  | oauthResponse
  | invalidOauthResponse
  | sharedRefresh (error : CredentialError)
  | refreshTaskStopped
deriving DecidableEq

/-- The `https://api.openai.com/auth` claim. -/
structure AccountClaim where
  chatgptAccountId : Option String
deriving DecidableEq

/-- The claims an account id is read from. -/
structure AccountClaims where
  auth : Option AccountClaim
deriving DecidableEq

/-- `decode_jwt_payload` at the two types it is used at. -/
structure JwtDecoder where
  expiryClaims : String → Option Int
  accountClaims : String → Option AccountClaims

/-- `char::is_whitespace`. -/
def isWhitespace (c : Char) : Bool :=
  (9 ≤ c.toNat && c.toNat ≤ 13) || (8192 ≤ c.toNat && c.toNat ≤ 8202) ||
    [32, 133, 160, 5760, 8232, 8233, 8239, 8287, 12288].contains c.toNat

/-- `trim().is_empty()`. -/
def isBlank (s : String) : Bool := s.toList.all isWhitespace

/-- Whether `HeaderValue::from_str` accepts a string. -/
def isHeaderValue (s : String) : Bool :=
  s.toList.all fun c => (32 ≤ c.toNat && c.toNat < 127) || c = '\t'

/-- `upstream_headers_are_valid`. -/
def upstreamHeadersAreValid (accessToken accountId : String) : Bool :=
  isHeaderValue ("Bearer " ++ accessToken) && isHeaderValue accountId

/-- `access_expiry`. -/
def accessExpiry (jwt : JwtDecoder) (accessToken : String) : Option OffsetDateTime :=
  (jwt.expiryClaims accessToken).bind fun exp => fromUnixTimestampNanos (exp * 1000000000)

/-- `account_id_from_id_token`. -/
def accountIdFromIdToken (jwt : JwtDecoder) (idToken : String) : Option String := do
  let claims ← jwt.accountClaims idToken
  let auth ← claims.auth
  auth.chatgptAccountId.filter (!isBlank ·)

/-- `optional_nonempty`. -/
def optionalNonempty : Option String → Except CredentialError (Option String)
  | some value => if isBlank value then .error .invalidOauthResponse else .ok (some value)
  | none => .ok none

/-! ### The refresh -/

/-- Addition of a `Duration`, which panics outside the representable years. -/
def addNanos (time : OffsetDateTime) (nanos : Int) : Option OffsetDateTime :=
  fromUnixTimestampNanos (time.unixTimestampNanos + nanos)

/-- `credential_needs_refresh`; `none` is the panic of the time arithmetic. -/
def credentialNeedsRefresh (credential : Credential) (now : OffsetDateTime) : Option Bool :=
  match credential.accessExpiresAt with
  -- `PROACTIVE_REFRESH_WINDOW` is five minutes.
  | some expiresAt => (addNanos now 300000000000).map fun limit => decide (expiresAt ≤ limit)
  -- `OPAQUE_TOKEN_REFRESH_AGE` is eight days.
  | none => (addNanos now (-691200000000000)).map fun limit => decide (credential.lastRefresh < limit)

/-- The body of a successful OAuth response. -/
structure RefreshResponse where
  idToken : Option String
  accessToken : Option String
  refreshToken : Option String
deriving DecidableEq

/-- The credentials `perform_refresh` saves after a response it accepts. -/
def refreshedCredential (jwt : JwtDecoder) (current : Credential) (refreshed : RefreshResponse)
    (now : OffsetDateTime) : Except CredentialError Credential := do
  let accountId := (refreshed.idToken.bind (accountIdFromIdToken jwt)).getD current.accountId
  let accessToken := (← optionalNonempty refreshed.accessToken).getD current.accessToken
  let refreshToken := (← optionalNonempty refreshed.refreshToken).getD current.refreshToken
  if !upstreamHeadersAreValid accessToken accountId then
    throw .invalidOauthResponse
  return {
    accountId
    accessExpiresAt := accessExpiry jwt accessToken
    accessToken
    refreshToken
    lastRefresh := now }

/-- A refresh is dated by the clock of the relay. -/
theorem lastRefresh_of_refreshedCredential {jwt : JwtDecoder} {current updated : Credential}
    {refreshed : RefreshResponse} {now : OffsetDateTime}
    (h : refreshedCredential jwt current refreshed now = .ok updated) :
    updated.lastRefresh = now := by
  simp only [refreshedCredential, bind_eq_ok] at h
  obtain ⟨accessToken, -, refreshToken, -, h⟩ := h
  split at h
  · cases h
  · cases h
    rfl

/-- Tokens are refused with one error. -/
theorem refreshedCredential_eq_error {jwt : JwtDecoder} {current : Credential}
    {refreshed : RefreshResponse} {now : OffsetDateTime} {error : CredentialError}
    (h : refreshedCredential jwt current refreshed now = .error error) :
    error = .invalidOauthResponse := by
  have hnonempty : ∀ value error', optionalNonempty value = .error error' →
      error' = .invalidOauthResponse := by
    intro value error' herror
    cases value with
    | none => cases herror
    | some value =>
      simp only [optionalNonempty] at herror
      split_ifs at herror
      cases herror
      rfl
  simp only [refreshedCredential] at h
  cases haccess : optionalNonempty refreshed.accessToken with
  | error error' =>
    rw [haccess] at h
    cases h
    exact hnonempty _ _ haccess
  | ok accessToken =>
    cases hrefresh : optionalNonempty refreshed.refreshToken with
    | error error' =>
      rw [haccess, hrefresh] at h
      cases h
      exact hnonempty _ _ hrefresh
    | ok refreshToken =>
      rw [haccess, hrefresh] at h
      simp only [ok_bind] at h
      split at h <;> cases h
      rfl

/-! ### Starts and refreshes -/

/-- The database, the credentials of the running process, and whether a refresh has been
persisted. -/
structure Installation where
  stored : Option CredentialsRow
  running : Option Credential
  refreshed : Bool
deriving DecidableEq

/-- What happens to an installation: a process start, and a successful refresh with the time the
clock shows and the response of the OAuth endpoint. -/
inductive InstallationAction
  | start
  | refresh (now : OffsetDateTime) (response : RefreshResponse)
deriving DecidableEq

section

variable (jwt : JwtDecoder) (seed : CredentialSeed)

/-- One action. A refresh needs a running process, and one that fails is no step. -/
def installationStep (s : Installation) : InstallationAction → Option Installation
  | .start =>
    match loadOrImportCredentials seed s.stored with
    | .ok (credential, row) =>
      some { s with stored := some row, running := some credential }
    | .error _ => some { s with running := none }
  | .refresh now response =>
    match s.running with
    | none => none
    | some current =>
      match refreshedCredential jwt current response now with
      | .error _ => none
      | .ok updated =>
        match saveCredentials updated s.stored with
        | .ok row => some ⟨some row, some updated, true⟩
        | .error _ => none

/-- Starts and refreshes with one unchanged seed. -/
abbrev InstallationRun := Run (ofFun (installationStep jwt seed))

/-- An installation whose process is not running yet. -/
def Installation.ofStored (stored : Option CredentialsRow) : Installation := ⟨stored, none, false⟩

/-- No start of the run that follows a refresh changes the stored credentials. -/
def RotationKept (stored : Option CredentialsRow) (as : List InstallationAction) : Prop :=
  ∀ pre post u v, as = pre ++ .start :: post →
    InstallationRun jwt seed (.ofStored stored) pre u → u.refreshed = true →
    installationStep jwt seed u .start = some v → v.stored = u.stored

/-- Every start that directly follows a refresh follows one that the clock dated no earlier than
the seed; a seed that cannot be stored is never imported. -/
def RefreshesDatedAfterSeed (as : List InstallationAction) : Prop :=
  ∀ pre post now response, as = pre ++ .refresh now response :: .start :: post →
    seed.lastRefresh ≤ now ∨ (Credential.ofSeed seed).storable = false

end

section

variable {jwt : JwtDecoder} {seed : CredentialSeed} {u v : Installation}
  {row : CredentialsRow} {current : Credential}

/-- The result of a refresh: the stored row decodes to credentials dated by the clock. -/
theorem installationStep_refresh {now : OffsetDateTime} {response : RefreshResponse}
    (h : installationStep jwt seed u (.refresh now response) = some v) :
    v.refreshed = true ∧ ∃ row current, v.stored = some row ∧
      credentialFromRow row = .ok current ∧ current.lastRefresh = now := by
  simp only [installationStep] at h
  split at h
  case h_1 => cases h
  case h_2 running hrunning =>
    split at h
    case h_1 => cases h
    case h_2 updated hupdated =>
      split at h
      case h_2 => cases h
      case h_1 row hsave =>
        cases h
        exact ⟨rfl, row, updated, rfl,
          credentialFromRow_of_credentialsRow (saveCredentials_eq_ok.mp hsave).1,
          lastRefresh_of_refreshedCredential hupdated⟩

theorem refreshed_of_start (h : installationStep jwt seed u .start = some v) :
    v.refreshed = u.refreshed := by
  simp only [installationStep] at h
  split at h <;> cases h <;> rfl

/-- A start keeps the stored credentials when the seed is not newer, or cannot be stored. -/
theorem stored_of_start_of_not_newer (hstored : u.stored = some row)
    (hcurrent : credentialFromRow row = .ok current)
    (hseed : seed.lastRefresh ≤ current.lastRefresh ∨ (Credential.ofSeed seed).storable = false)
    (h : installationStep jwt seed u .start = some v) : v.stored = u.stored := by
  have hload : ∀ result, loadOrImportCredentials seed u.stored = .ok result →
      result.2 = row := by
    intro result hresult
    rw [hstored, loadOrImportCredentials, hcurrent] at hresult
    simp only [ok_bind] at hresult
    split at hresult
    case isTrue hnewer =>
      rcases hseed with hle | hunstorable
      · exact absurd hnewer (Int.not_lt.mpr hle)
      · obtain ⟨imported, himported, -⟩ := bind_eq_ok.mp hresult
        rw [(credentialsRow_eq_ok.mp himported).1] at hunstorable
        cases hunstorable
    case isFalse =>
      cases hresult
      rfl
  simp only [installationStep] at h
  split at h
  case h_1 credential row' hresult =>
    cases h
    rw [hstored, ← hload _ hresult]
  case h_2 =>
    cases h
    rfl

/-- A start replaces the stored credentials when the seed is newer and can be stored. -/
theorem stored_of_start_of_newer (hstored : u.stored = some row)
    (hcurrent : credentialFromRow row = .ok current)
    (hnewer : current.lastRefresh < seed.lastRefresh)
    (hstorable : (Credential.ofSeed seed).storable = true)
    (h : installationStep jwt seed u .start = some v) : v.stored ≠ u.stored := by
  obtain ⟨imported, himported⟩ : ∃ imported, credentialsRow (.ofSeed seed) = .ok imported :=
    ⟨_, credentialsRow_eq_ok.mpr ⟨hstorable, rfl⟩⟩
  have hload : loadOrImportCredentials seed u.stored = .ok (.ofSeed seed, imported) := by
    rw [hstored, loadOrImportCredentials, hcurrent, ok_bind, if_pos hnewer, himported]
    rfl
  simp only [installationStep, hload, Option.some.injEq] at h
  subst h
  rw [hstored]
  rintro ⟨⟩
  -- The imported row decodes to the seed, whose date is another one.
  rw [credentialFromRow_of_credentialsRow himported] at hcurrent
  cases hcurrent
  exact lt_irrefl seed.lastRefresh.unixTimestampNanos hnewer

/-- After a refresh, the stored credentials are those of the last action, or are dated no earlier
than the seed. -/
theorem settled_of_run {stored : Option CredentialsRow} {as pre post : List InstallationAction}
    (hdates : RefreshesDatedAfterSeed seed as) (has : as = pre ++ post)
    (h : InstallationRun jwt seed (.ofStored stored) pre u) (hrefreshed : u.refreshed = true) :
    ∃ row current, u.stored = some row ∧ credentialFromRow row = .ok current ∧
      ((seed.lastRefresh ≤ current.lastRefresh ∨ (Credential.ofSeed seed).storable = false) ∨
        ∃ pre' response, pre = pre' ++ [.refresh current.lastRefresh response]) := by
  induction pre using List.reverseRecOn generalizing post u with
  | nil =>
    obtain rfl := run_nil_iff.mp h
    cases hrefreshed
  | append_singleton pre a ih =>
    obtain ⟨t, hpre, hlast⟩ := run_append_iff.mp h
    obtain ⟨_, hstep, hnil⟩ := run_cons_iff.mp hlast
    obtain rfl := run_nil_iff.mp hnil
    cases a with
    | refresh now response =>
      obtain ⟨-, row, current, hstored, hcurrent, rfl⟩ := installationStep_refresh hstep
      exact ⟨row, current, hstored, hcurrent, .inr ⟨pre, response, rfl⟩⟩
    | start =>
      obtain ⟨row, current, hstored, hcurrent, hsettled⟩ := ih
        (by simpa using has) hpre (refreshed_of_start hstep ▸ hrefreshed)
      have hdated : seed.lastRefresh ≤ current.lastRefresh ∨
          (Credential.ofSeed seed).storable = false := by
        rcases hsettled with hdated | ⟨pre', response, rfl⟩
        · exact hdated
        · exact hdates pre' post current.lastRefresh response (by simpa using has)
      refine ⟨row, current, ?_, hcurrent, .inl hdated⟩
      rw [stored_of_start_of_not_newer hstored hcurrent hdated hstep, hstored]

end

/-- **When a seed undoes a rotation.** In a run of starts and refreshes with an unchanged seed, on
any database, every start after a refresh keeps the stored credentials if and only if every start
directly after a refresh follows one that the clock dated no earlier than the seed (or the seed's
times cannot be stored at all). -/
theorem rotationKept_iff (jwt : JwtDecoder) (seed : CredentialSeed)
    (stored : Option CredentialsRow) (as : List InstallationAction) (t : Installation)
    (h : InstallationRun jwt seed (.ofStored stored) as t) :
    RotationKept jwt seed stored as ↔ RefreshesDatedAfterSeed seed as := by
  constructor
  · rintro hkept pre post now response rfl
    obtain ⟨s, hpre, hrest⟩ := run_append_iff.mp h
    obtain ⟨u, hrefresh, hrest⟩ := run_cons_iff.mp hrest
    obtain ⟨v, hstart, -⟩ := run_cons_iff.mp hrest
    obtain ⟨hrefreshed, row, current, hstored, hcurrent, rfl⟩ := installationStep_refresh hrefresh
    by_contra hcontra
    rw [not_or, Bool.not_eq_false] at hcontra
    have hsame : v.stored = u.stored :=
      hkept (pre ++ [.refresh current.lastRefresh response]) post u v (by simp)
        (hpre.append (.single hrefresh)) hrefreshed hstart
    exact stored_of_start_of_newer hstored hcurrent (Int.not_le.mp hcontra.1) hcontra.2 hstart hsame
  · rintro hdates pre post u v rfl hpre hrefreshed hstart
    obtain ⟨row, current, hstored, hcurrent, hsettled⟩ := settled_of_run hdates rfl hpre hrefreshed
    refine stored_of_start_of_not_newer hstored hcurrent ?_ hstart
    rcases hsettled with hdated | ⟨pre', response, rfl⟩
    · exact hdated
    · exact hdates pre' post current.lastRefresh response (by simp)

/-! ### A relay clock behind the seed -/

/-- A decoder that decodes nothing. -/
def opaqueTokens : JwtDecoder := ⟨fun _ => none, fun _ => none⟩

/-- The instant `n` seconds after the epoch. -/
def secondsAfterEpoch (n : Nat) (h : n ≤ 253402300799 := by decide) : OffsetDateTime :=
  ⟨n * 1000000000, by simp only [minUnixNanos]; omega, by simp only [maxUnixNanos]; omega⟩

/-- The instant 100 seconds after the epoch. -/
def hundredSeconds : OffsetDateTime := secondsAfterEpoch 100

/-- A seed dated 100 seconds after the epoch. -/
def lateSeed : CredentialSeed := ⟨"account", "access", "refresh", none, hundredSeconds⟩

/-- A rotation of both tokens. -/
def rotation : RefreshResponse := ⟨none, some "rotated access", some "rotated refresh"⟩

/-- The state after a list of actions on an empty database. -/
def installationAfter (as : List InstallationAction) : Installation :=
  (exec (installationStep opaqueTokens lateSeed) (.ofStored none) as).getD (.ofStored none)

/-- A rotation dated after the seed survives the next start. -/
theorem rotationKept_iff_after_seed :
    RotationKept opaqueTokens lateSeed none
      [.start, .refresh (secondsAfterEpoch 200) rotation, .start] := by
  have hrun : InstallationRun opaqueTokens lateSeed (.ofStored none)
      [.start, .refresh (secondsAfterEpoch 200) rotation, .start]
      (installationAfter [.start, .refresh (secondsAfterEpoch 200) rotation, .start]) :=
    run_ofFun_iff.mpr (by decide)
  refine (rotationKept_iff opaqueTokens lateSeed none _ _ hrun).mpr ?_
  rintro (_ | ⟨a, _ | ⟨b, _ | ⟨c, pre⟩⟩⟩) post now response h
  · simp at h
  · simp only [List.cons_append, List.nil_append, List.cons.injEq,
      InstallationAction.refresh.injEq] at h
    obtain ⟨-, ⟨rfl, -⟩, -⟩ := h
    exact .inl (by decide)
  · simp at h
  · simp at h

/-- **The law fails.** A rotation dated before the seed is undone by the next start. -/
theorem not_rotationKept_before_seed :
    ¬ RotationKept opaqueTokens lateSeed none
      [.start, .refresh (secondsAfterEpoch 50) rotation, .start] := by
  intro hkept
  have hstored := hkept [.start, .refresh (secondsAfterEpoch 50) rotation] []
    (installationAfter [.start, .refresh (secondsAfterEpoch 50) rotation])
    (installationAfter [.start, .refresh (secondsAfterEpoch 50) rotation, .start]) rfl
    (run_ofFun_iff.mpr (by decide)) (by decide) (by decide)
  exact absurd hstored (by decide)

end CodexApi
