import CodexApi.Credentials.Refresh

/-!
# Reading and keeping credentials

`readAuthSeed` is what a process start accepts as an authentication file. What it and a refresh
accept has an expiry read from the access token and the time of the last refresh; both range over
all instants the `time` crate represents, while the table stores `i64` nanoseconds. So accepted
credentials can be kept exactly when both times fit (`TimesFit`), and what is kept is read back
unchanged (`credentials_kept_iff`).
-/

namespace CodexApi

/-! ### The authentication file -/

/-- The tokens of an authentication file. -/
structure AuthTokens where
  idToken : String
  accessToken : String
  refreshToken : String
  accountId : Option String

/-- An authentication file. -/
structure AuthFile where
  authMode : String
  tokens : AuthTokens
  lastRefresh : String

/-- The errors of reading a seed. -/
inductive SeedError
  | readSeed
  | invalidSeed
  | invalidSeedStructure
deriving DecidableEq

/-- The file system, the JSON reader and the RFC 3339 parser. -/
structure SeedReader where
  read : String → Option (List UInt8)
  fromSlice : List UInt8 → Option AuthFile
  parseRfc3339 : String → Option OffsetDateTime

/-- `decode_jwt_payload`: base64 and JSON, on the second part of a token. -/
def decodeJwtPayload {α : Type} (decode : String → Option (List UInt8))
    (fromSlice : List UInt8 → Option α) (token : String) : Option α := do
  let payload ← (token.toList.splitOn '.')[1]?
  let decoded ← decode (String.ofList payload)
  fromSlice decoded

/-- `Err` unless there is a value. -/
def orError {α : Type} (error : SeedError) : Option α → Except SeedError α
  | some value => .ok value
  | none => .error error

/-- `read_auth_seed`. -/
def readAuthSeed (jwt : JwtDecoder) (reader : SeedReader) (path : String) :
    Except SeedError CredentialSeed := do
  let contents ← orError .readSeed (reader.read path)
  let auth ← orError .invalidSeed (reader.fromSlice contents)
  if auth.authMode ≠ "chatgpt" || isBlank auth.tokens.accessToken ||
      isBlank auth.tokens.refreshToken || isBlank auth.tokens.idToken then
    throw .invalidSeedStructure
  let accountId ← orError .invalidSeedStructure
    ((auth.tokens.accountId.filter (!isBlank ·)).or (accountIdFromIdToken jwt auth.tokens.idToken))
  if !upstreamHeadersAreValid auth.tokens.accessToken accountId then
    throw .invalidSeedStructure
  let lastRefresh ← orError .invalidSeedStructure (reader.parseRfc3339 auth.lastRefresh)
  return {
    accountId
    accessExpiresAt := accessExpiry jwt auth.tokens.accessToken
    accessToken := auth.tokens.accessToken
    refreshToken := auth.tokens.refreshToken
    lastRefresh }

/-! ### Times that fit -/

/-- The expiry that an access token names, if it names one, and the time of the last refresh are
`i64` nanoseconds. -/
def TimesFit (jwt : JwtDecoder) (accessToken : String) (lastRefresh : OffsetDateTime) : Prop :=
  (∀ expiry ∈ accessExpiry jwt accessToken, inI64 expiry.unixTimestampNanos = true) ∧
    inI64 lastRefresh.unixTimestampNanos = true

variable {jwt : JwtDecoder} {reader : SeedReader} {path : String} {seed : CredentialSeed}
  {credential current updated : Credential} {refreshed : RefreshResponse} {now : OffsetDateTime}
  {old row : CredentialsRow}

/-- The expiry of a seed is that of its access token. -/
theorem accessExpiresAt_of_readAuthSeed (h : readAuthSeed jwt reader path = .ok seed) :
    seed.accessExpiresAt = accessExpiry jwt seed.accessToken := by
  simp only [readAuthSeed, bind_eq_ok] at h
  obtain ⟨contents, -, auth, -, h⟩ := h
  split_ifs at h
  · cases h
  · simp only [bind_eq_ok] at h
    obtain ⟨accountId, -, h⟩ := h
    split_ifs at h
    · cases h
    · simp only [bind_eq_ok] at h
      obtain ⟨lastRefresh, -, h⟩ := h
      cases h
      rfl

/-- The expiry of refreshed credentials is that of their access token, which is the new one if
there is one. -/
theorem tokens_of_refreshedCredential (h : refreshedCredential jwt current refreshed now = .ok updated) :
    updated.accessToken = refreshed.accessToken.getD current.accessToken ∧
      updated.accessExpiresAt = accessExpiry jwt updated.accessToken := by
  have hnonempty : ∀ {value value' : Option String}, optionalNonempty value = .ok value' →
      value' = value := by
    intro value value' h
    cases value with
    | none => cases h; rfl
    | some value =>
      simp only [optionalNonempty] at h
      split_ifs at h
      cases h
      rfl
  simp only [refreshedCredential, bind_eq_ok] at h
  obtain ⟨accessToken, haccess, refreshToken, -, h⟩ := h
  cases hnonempty haccess
  split at h
  · cases h
  · cases h
    exact ⟨rfl, rfl⟩

theorem storable_iff (h : credential.accessExpiresAt = accessExpiry jwt credential.accessToken) :
    credential.storable = true ↔ TimesFit jwt credential.accessToken credential.lastRefresh := by
  rw [Credential.storable, TimesFit, h, Bool.and_eq_true, Option.all_eq_true]
  rfl

/-! ### What is kept -/

/-- A stored credential is loaded by every start whose seed is not newer. -/
theorem loadOrImport_of_credentialsRow (hrow : credentialsRow credential = .ok row)
    (hseed : ¬ credential.lastRefresh < seed.lastRefresh) :
    loadOrImportCredentials seed (some row) = .ok (credential, row) := by
  simp only [loadOrImportCredentials, credentialFromRow_of_credentialsRow hrow, ok_bind,
    if_neg hseed]
  rfl

/-- What an import into an empty table leaves. -/
theorem import_eq_ok : loadOrImportCredentials seed none = .ok (credential, row) ↔
    credential = .ofSeed seed ∧ credentialsRow (.ofSeed seed) = .ok row := by
  simp only [loadOrImportCredentials, bind_eq_ok]
  constructor
  · rintro ⟨row', hrow, h⟩
    cases h
    exact ⟨rfl, hrow⟩
  · rintro ⟨rfl, hrow⟩
    exact ⟨row, hrow, rfl⟩

/-- **A seed is kept** — imported into the empty table and loaded again unchanged — exactly when its
times fit. -/
theorem seedKept_iff (hread : readAuthSeed jwt reader path = .ok seed) :
    (∃ row, loadOrImportCredentials seed none = .ok (.ofSeed seed, row) ∧
      loadOrImportCredentials seed (some row) = .ok (.ofSeed seed, row)) ↔
    TimesFit jwt seed.accessToken seed.lastRefresh := by
  have hexpiry : (Credential.ofSeed seed).accessExpiresAt =
      accessExpiry jwt (Credential.ofSeed seed).accessToken :=
    accessExpiresAt_of_readAuthSeed hread
  have hstorable := storable_iff hexpiry
  constructor
  · rintro ⟨row, himport, -⟩
    exact hstorable.mp (credentialsRow_eq_ok.mp (import_eq_ok.mp himport).2).1
  · intro hfit
    have hrow := credentialsRow_eq_ok.mpr ⟨hstorable.mpr hfit, rfl⟩
    refine ⟨_, import_eq_ok.mpr ⟨rfl, hrow⟩, loadOrImport_of_credentialsRow hrow ?_⟩
    exact lt_irrefl seed.lastRefresh.unixTimestampNanos

/-- **Refreshed credentials are kept** — saved, and loaded by every start whose seed is not newer —
exactly when their times fit. -/
theorem refreshKept_iff (hrefreshed : refreshedCredential jwt current refreshed now = .ok updated) :
    (∃ row, saveCredentials updated (some old) = .ok row ∧
      ∀ seed : CredentialSeed, ¬ now < seed.lastRefresh →
        loadOrImportCredentials seed (some row) = .ok (updated, row)) ↔
    TimesFit jwt (refreshed.accessToken.getD current.accessToken) now := by
  obtain ⟨haccess, hexpiry⟩ := tokens_of_refreshedCredential hrefreshed
  have hstorable := storable_iff hexpiry
  rw [lastRefresh_of_refreshedCredential hrefreshed, haccess] at hstorable
  constructor
  · rintro ⟨row, hsave, -⟩
    exact hstorable.mp (credentialsRow_eq_ok.mp (saveCredentials_eq_ok.mp hsave).1).1
  · intro hfit
    have hrow := credentialsRow_eq_ok.mpr ⟨hstorable.mpr hfit, rfl⟩
    refine ⟨_, saveCredentials_eq_ok.mpr ⟨hrow, by simp⟩, fun seed hseed => ?_⟩
    refine loadOrImport_of_credentialsRow hrow ?_
    rwa [lastRefresh_of_refreshedCredential hrefreshed]

/-- A reader of one access token's payload, which says that the token expires `exp` seconds after
the epoch. -/
def expiresAt (exp : Int) : JwtDecoder where
  expiryClaims :=
    decodeJwtPayload (fun payload => if payload = "payload" then some [] else none)
      fun _ => some exp
  accountClaims := fun _ => none

/-- An authentication file with that token. -/
def authFile : AuthFile where
  authMode := "chatgpt"
  tokens := ⟨"id", "header.payload.signature", "refresh", some "account"⟩
  lastRefresh := "1970-01-01T00:01:40Z"

/-- A file system that holds the file. -/
def authReader : SeedReader where
  read := fun _ => some []
  fromSlice := fun _ => some authFile
  parseRfc3339 := fun text =>
    if text = "1970-01-01T00:01:40Z" then some (hundredSeconds) else none

/-- The seed of the file. -/
def authSeed (exp : Nat) (h : exp ≤ 253402300799 := by decide) : CredentialSeed :=
  ⟨"account", "header.payload.signature", "refresh", some (secondsAfterEpoch exp h),
    hundredSeconds⟩

/-- A response that rotates the refresh token only. -/
def refreshRotation : RefreshResponse := ⟨none, none, some "rotated refresh"⟩

end CodexApi
