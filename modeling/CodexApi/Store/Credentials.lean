import CodexApi.Store.Ledger

/-!
# Stored credentials

The `credentials` table holds at most one row, so a database is an `Option CredentialsRow`.
`loadOrImportCredentials` is what a process start does with it and the authentication seed;
`saveCredentials` is what a refresh does. Times are stored as `i64` nanoseconds, and a time that
does not fit fails the statement before anything is written.
-/

namespace CodexApi

/-- The credentials of the upstream account. -/
structure Credential where
  accountId : String
  accessToken : String
  refreshToken : String
  accessExpiresAt : Option OffsetDateTime
  lastRefresh : OffsetDateTime
deriving DecidableEq

/-- The credentials an authentication file supplies. -/
structure CredentialSeed where
  accountId : String
  accessToken : String
  refreshToken : String
  accessExpiresAt : Option OffsetDateTime
  lastRefresh : OffsetDateTime
deriving DecidableEq

/-- `Credential::from` of a seed. -/
def Credential.ofSeed (seed : CredentialSeed) : Credential where
  accountId := seed.accountId
  accessToken := seed.accessToken
  refreshToken := seed.refreshToken
  accessExpiresAt := seed.accessExpiresAt
  lastRefresh := seed.lastRefresh

/-- The row of the table. -/
structure CredentialsRow where
  accountId : String
  accessToken : String
  refreshToken : String
  accessExpiresAtNs : Option Int
  lastRefreshNs : Int
deriving DecidableEq

/-- `timestamp_ns`. -/
def timestampNs (value : OffsetDateTime) : Except StoreError Int :=
  if inI64 value.unixTimestampNanos then .ok value.unixTimestampNanos
  else .error .timestampOutOfRange

/-- `optional_timestamp_ns`. -/
def optionalTimestampNs : Option OffsetDateTime → Except StoreError (Option Int)
  | none => .ok none
  | some value => (timestampNs value).map some

/-- `offset_from_ns`. -/
def offsetFromNs (value : Int) : Except StoreError OffsetDateTime :=
  match fromUnixTimestampNanos value with
  | some time => .ok time
  | none => .error .timestampOutOfRange

/-- `credential_from_row`. -/
def credentialFromRow (row : CredentialsRow) : Except StoreError Credential := do
  return {
    accountId := row.accountId
    accessToken := row.accessToken
    refreshToken := row.refreshToken
    accessExpiresAt := ← match row.accessExpiresAtNs with
      | none => pure none
      | some ns => (offsetFromNs ns).map some
    lastRefresh := ← offsetFromNs row.lastRefreshNs }

/-- The columns that `insert_credentials`, `update_credentials` and `save_credentials` bind. -/
def credentialsRow (credential : Credential) : Except StoreError CredentialsRow := do
  return {
    accountId := credential.accountId
    accessToken := credential.accessToken
    refreshToken := credential.refreshToken
    accessExpiresAtNs := ← optionalTimestampNs credential.accessExpiresAt
    lastRefreshNs := ← timestampNs credential.lastRefresh }

/-- `load_or_import_credentials`: the loaded credentials and the row the transaction leaves. -/
def loadOrImportCredentials (seed : CredentialSeed) (stored : Option CredentialsRow) :
    Except StoreError (Credential × CredentialsRow) := do
  match stored with
  | none => return (.ofSeed seed, ← credentialsRow (.ofSeed seed))
  | some row =>
    let current ← credentialFromRow row
    if current.lastRefresh < seed.lastRefresh then
      return (.ofSeed seed, ← credentialsRow (.ofSeed seed))
    else
      return (current, row)

/-- `save_credentials`: the row after the update of the only row there is. -/
def saveCredentials (credential : Credential) (stored : Option CredentialsRow) :
    Except StoreError CredentialsRow := do
  let row ← credentialsRow credential
  if stored.isNone then
    throw .credentialsNotInitialized
  return row

/-! ### Round trip -/

/-- Whether the times of a credential can be stored. -/
def Credential.storable (credential : Credential) : Bool :=
  credential.accessExpiresAt.all (inI64 ·.unixTimestampNanos) &&
    inI64 credential.lastRefresh.unixTimestampNanos

variable {credential : Credential} {row : CredentialsRow} {stored : Option CredentialsRow}

/-- The row of a credential, which exists exactly for storable ones. -/
theorem credentialsRow_eq_ok : credentialsRow credential = .ok row ↔
    credential.storable = true ∧
      row = {
        accountId := credential.accountId
        accessToken := credential.accessToken
        refreshToken := credential.refreshToken
        accessExpiresAtNs := credential.accessExpiresAt.map (·.unixTimestampNanos)
        lastRefreshNs := credential.lastRefresh.unixTimestampNanos } := by
  obtain ⟨accountId, accessToken, refreshToken, accessExpiresAt, lastRefresh⟩ := credential
  cases hlast : inI64 lastRefresh.unixTimestampNanos with
  | false =>
    cases accessExpiresAt with
    | none => simp [credentialsRow, optionalTimestampNs, timestampNs, Credential.storable, hlast]
    | some expiry =>
      cases hexpiry : inI64 expiry.unixTimestampNanos <;>
        simp [credentialsRow, optionalTimestampNs, timestampNs, Credential.storable, hlast,
          hexpiry, Except.map]
  | true =>
    cases accessExpiresAt with
    | none =>
      simp [credentialsRow, optionalTimestampNs, timestampNs, Credential.storable, hlast,
        eq_comm, pure, Except.pure]
    | some expiry =>
      cases hexpiry : inI64 expiry.unixTimestampNanos <;>
        simp [credentialsRow, optionalTimestampNs, timestampNs, Credential.storable, hlast,
          hexpiry, Except.map, eq_comm, pure, Except.pure]

theorem offsetFromNs_unixTimestampNanos (time : OffsetDateTime) :
    offsetFromNs time.unixTimestampNanos = .ok time := by
  rw [offsetFromNs, fromUnixTimestampNanos, dif_pos ⟨time.min_le, time.le_max⟩]

/-- What was stored is read back. -/
theorem credentialFromRow_of_credentialsRow (h : credentialsRow credential = .ok row) :
    credentialFromRow row = .ok credential := by
  obtain ⟨-, rfl⟩ := credentialsRow_eq_ok.mp h
  obtain ⟨accountId, accessToken, refreshToken, accessExpiresAt, lastRefresh⟩ := credential
  cases accessExpiresAt <;>
    simp [credentialFromRow, offsetFromNs_unixTimestampNanos, Except.map, pure, Except.pure]

theorem saveCredentials_eq_ok :
    saveCredentials credential stored = .ok row ↔
      credentialsRow credential = .ok row ∧ stored ≠ none := by
  cases stored with
  | none =>
    simp only [saveCredentials, bind_eq_ok]
    constructor
    · rintro ⟨row', -, h⟩
      cases h
    · rintro ⟨-, h⟩
      exact absurd rfl h
  | some old =>
    simp [saveCredentials, bind_eq_ok, pure, Except.pure]

end CodexApi
