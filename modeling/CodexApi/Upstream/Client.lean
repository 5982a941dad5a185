import CodexApi.Credentials.Consistency
import CodexApi.Json

/-!
# The upstream client

`UpstreamHttpClient` and `connect_upstream_websocket` over the credential manager, as a transition
system. An operation passes through the await points of `send_json`, `models` or
`connect_upstream_websocket`: it waits for credentials, sends its request, and after a 401 waits for
a refresh and sends it once more. `models` runs under the lock of its cache, which it holds from the
lookup to the end of the fetch. An operation may be canceled wherever it waits; its caller in the
manager and the lock go with it.

The manager moves on between the steps of operations, with its tasks and its transactions
(`VaultAction.internal`), but only operations call it. `fetches` lists the operations that found no
fresh list in the cache, in the order in which they held its lock.
-/

namespace CodexApi

open Transition

/-! ### Operations -/

/-- What an operation asks the upstream for. -/
inductive Target
  /-- `send` and `images`. -/
  | post
  | models
  | webSocket
deriving DecidableEq

/-- What comes of a request: it fails in transport, or a status line arrives. A WebSocket handshake
succeeds with 101. -/
inductive UpstreamReply
  | failed
  | status (code : Nat)
deriving DecidableEq

/-- A request that was sent, with the credentials it carried. -/
structure UpstreamRequest where
  credentials : CredentialSnapshot
  reply : Option UpstreamReply
deriving DecidableEq

/-- `UpstreamHttpError`. -/
inductive UpstreamHttpError
  | credentials (error : CredentialError)
  | credentialRefresh (error : CredentialError)
  | authenticationRejected
  | invalidCredentialHeader
  | transport
  | invalidModelsPayload
deriving DecidableEq

/-- `UpstreamWebSocketError`, as `connect_upstream_websocket` returns it. -/
inductive ConnectError
  | credentials (error : CredentialError)
  | credentialRefresh (error : CredentialError)
  | authenticationRejected
  | handshake (status : Nat)
  | request
  | transport
deriving DecidableEq

/-- What an operation returns. -/
inductive OperationResult
  | response (status : Nat)
  | models (models : List Value)
  | connected
  | httpError (error : UpstreamHttpError)
  | webSocketError (error : ConnectError)
deriving DecidableEq

/-- The await points of an operation. -/
inductive OperationPhase
  /-- `models` waits for the lock of the cache. -/
  | locking
  /-- A caller of the manager waits for credentials. -/
  | authorizing (caller : Nat)
  | sending (credentials : CredentialSnapshot)
  /-- A caller of the manager waits for a refresh. -/
  | refreshing (caller : Nat)
  | resending
  /-- `models` reads the body. -/
  | reading
  | returned (result : OperationResult)
  /-- The operation was canceled, or the time arithmetic of its caller panicked. -/
  | gone
deriving DecidableEq

/-- A call of the client. -/
structure Operation where
  target : Target
  phase : OperationPhase
  requests : List UpstreamRequest
  /-- `now` in `models`. -/
  now : Option OffsetDateTime
  /-- `payload` in `models`. -/
  payload : Option Value
deriving DecidableEq

/-- `CachedModels`. -/
structure CachedModels where
  fetchedAt : OffsetDateTime
  models : List Value
deriving DecidableEq

/-- The client over the credentials, with its operations. -/
structure UpstreamClient where
  vault : Vault
  modelsCache : Option CachedModels
  /-- The operation that holds the lock of the cache. -/
  cacheHolder : Option Nat
  operations : List Operation
  fetches : List Nat
deriving DecidableEq

/-- A client that has just been made. -/
def UpstreamClient.init (vault : Vault) : UpstreamClient := ⟨vault, none, none, [], []⟩

/-! ### What the code computes between its await points -/

/-- `MODELS_CACHE_TTL`, one hour. -/
def modelsCacheTtl : Int := 3600000000000

/-- `now - fetched_at < MODELS_CACHE_TTL`. -/
def CachedModels.fresh (cached : CachedModels) (now : OffsetDateTime) : Bool :=
  decide (now.unixTimestampNanos - cached.fetchedAt.unixTimestampNanos < modelsCacheTtl)

/-- The slug of an entry of the list, if it is a text. -/
def modelSlug (model : Value) : Option String := (model.get "slug").bind Value.asStr

/-- The check of an entry: an object with a nonempty slug. -/
def isModelEntry (model : Value) : Bool :=
  (model.asObject).any fun _ => (modelSlug model).any fun slug => decide (slug ≠ "")

/-- The list in the body of a response. -/
def modelsOfPayload (payload : Value) : Option (List Value) :=
  ((payload.get "models").bind Value.asArray).filter fun models => models.all isModelEntry

/-- The lookup of `model`. -/
def findModel (slug : String) (models : List Value) : Option Value :=
  models.find? fun model => modelSlug model = some slug

namespace Target

/-- The failure of `credentials`. -/
def credentialsError (target : Target) (error : CredentialError) : OperationResult :=
  match target with
  | post | models => .httpError (.credentials error)
  | webSocket => .webSocketError (.credentials error)

/-- The failure of `refresh_after_unauthorized`. -/
def refreshError (target : Target) (error : CredentialError) : OperationResult :=
  match target with
  | post | models => .httpError (.credentialRefresh error)
  | webSocket => .webSocketError (.credentialRefresh error)

/-- A second 401. -/
def rejected : Target → OperationResult
  | post | models => .httpError .authenticationRejected
  | webSocket => .webSocketError .authenticationRejected

/-- A failure in transport. -/
def transportError : Target → OperationResult
  | post | models => .httpError .transport
  | webSocket => .webSocketError .transport

/-- How `send_once`, `send_models_once` and `connect_once` refuse credentials that are no header
values, before they send anything. The request builder checks the account id. -/
def refuses (target : Target) (credentials : CredentialSnapshot) : Option OperationResult :=
  if !isHeaderValue ("Bearer " ++ credentials.accessToken) then
    match target with
    | post | models => some (.httpError .invalidCredentialHeader)
    | webSocket => some (.webSocketError .request)
  else if !isHeaderValue credentials.accountId then
    match target with
    | post | models => some (.httpError .transport)
    | webSocket => some (.webSocketError .request)
  else none

end Target

/-- An operation hears what came of its last request. -/
def Operation.hear (operation : Operation) (reply : UpstreamReply) : Operation :=
  { operation with
    requests := operation.requests.modify (operation.requests.length - 1)
      fun request => { request with reply := some reply } }

namespace UpstreamClient

/-- An operation moves on. -/
def setOperation (s : UpstreamClient) (index : Nat) (operation : Operation) : UpstreamClient :=
  { s with operations := s.operations.set index operation }

/-- An operation drops the lock of the cache if it holds it. -/
def unlockCache (s : UpstreamClient) (index : Nat) : UpstreamClient :=
  { s with cacheHolder := if s.cacheHolder = some index then none else s.cacheHolder }

/-- An operation returns. -/
def finish (s : UpstreamClient) (index : Nat) (operation : Operation) (result : OperationResult) :
    UpstreamClient :=
  (s.unlockCache index).setOperation index { operation with phase := .returned result }

/-- An operation sends its request, and goes on to `phase`. -/
def send (s : UpstreamClient) (index : Nat) (operation : Operation)
    (credentials : CredentialSnapshot) (phase : OperationPhase) : UpstreamClient :=
  match operation.target.refuses credentials with
  | some result => s.finish index operation result
  | none => s.setOperation index
      { operation with phase, requests := operation.requests ++ [⟨credentials, none⟩] }

/-- An operation has a response that is no 401. -/
def answer (s : UpstreamClient) (index : Nat) (operation : Operation) (code : Nat) :
    UpstreamClient :=
  match operation.target with
  | .post => s.finish index operation (.response code)
  | .webSocket =>
    s.finish index operation
      (if code = 101 then .connected else .webSocketError (.handshake code))
  | .models =>
    -- `error_for_status`
    if 400 ≤ code ∧ code ≤ 599 then s.finish index operation (.httpError .transport)
    else s.setOperation index { operation with phase := .reading }

/-- What a caller of the manager has come to: nothing yet, an outcome, or its end without one. -/
def outcomeOf (s : UpstreamClient) (caller : Nat) : Option (Option RefreshOutcome) :=
  match s.vault.manager.callers[caller]? with
  | some (.returned outcome) => some (some outcome)
  | some .gone => some none
  | _ => none

end UpstreamClient

/-! ### Steps -/

/-- The steps that the manager takes on its own. -/
def VaultAction.internal : VaultAction → Bool
  | .manager (.caller _ _) | .manager (.task _ _) | .commit _ => true
  | _ => false

/-- One step of the client. -/
inductive ClientAction
  | start (target : Target)
  | vault (action : VaultAction)
  /-- The operation finds its lock free or its caller done; the clock shows `now`. -/
  | poll (index : Nat) (now : OffsetDateTime)
  | reply (index : Nat) (reply : UpstreamReply)
  /-- The body of a response of `models`, if it is JSON. -/
  | body (index : Nat) (payload : Option Value)
  | cancel (index : Nat)
deriving DecidableEq

namespace UpstreamClient

/-- An operation calls the manager, and waits for the new caller. -/
def call (jwt : JwtDecoder) (s : UpstreamClient) (action : ManagerAction) (index : Nat)
    (operation : Operation) (phase : Nat → OperationPhase) : Option UpstreamClient :=
  (vaultStep jwt s.vault (.manager action)).map fun vault =>
    { s.setOperation index { operation with phase := phase s.vault.manager.callers.length } with
      vault }

/-- An operation that has something to go on with. -/
def pollOperation (jwt : JwtDecoder) (s : UpstreamClient) (index : Nat) (now : OffsetDateTime)
    (operation : Operation) : Option UpstreamClient :=
  match operation.phase with
  | .locking =>
    if s.cacheHolder = none then
      match s.modelsCache.filter (·.fresh now) with
      | some cached =>
        some (s.setOperation index
          { operation with now := some now, phase := .returned (.models cached.models) })
      | none =>
        { s with cacheHolder := some index, fetches := s.fetches ++ [index] }.call jwt .credentials
          index { operation with now := some now } .authorizing
    else none
  | .authorizing caller =>
    match s.outcomeOf caller with
    | some (some (.ok credentials)) =>
      some (s.send index operation credentials (.sending credentials))
    | some (some (.error error)) =>
      some (s.finish index operation (operation.target.credentialsError error))
    | some none => some ((s.unlockCache index).setOperation index { operation with phase := .gone })
    | none => none
  | .refreshing caller =>
    match s.outcomeOf caller with
    | some (some (.ok credentials)) => some (s.send index operation credentials .resending)
    | some (some (.error error)) =>
      some (s.finish index operation (operation.target.refreshError error))
    | some none => some ((s.unlockCache index).setOperation index { operation with phase := .gone })
    | none => none
  | _ => none

/-- An operation whose request comes to something. -/
def hearReply (jwt : JwtDecoder) (s : UpstreamClient) (index : Nat) (operation : Operation)
    (reply : UpstreamReply) : Option UpstreamClient :=
  let heard := operation.hear reply
  match operation.phase, reply with
  | .sending _, .failed | .resending, .failed =>
    some (s.finish index heard operation.target.transportError)
  | .sending credentials, .status code =>
    if code = 401 then
      s.call jwt (.refreshAfterUnauthorized credentials.generation) index heard .refreshing
    else some (s.answer index heard code)
  | .resending, .status code =>
    if code = 401 then some (s.finish index heard operation.target.rejected)
    else some (s.answer index heard code)
  | _, _ => none

/-- `models` has the body of its response. -/
def readBody (s : UpstreamClient) (index : Nat) (operation : Operation) (payload : Option Value) :
    Option UpstreamClient :=
  match operation.phase, operation.now with
  | .reading, some now =>
    let read := { operation with payload }
    match payload with
    | none => some (s.finish index read (.httpError .transport))
    | some payload =>
      match modelsOfPayload payload with
      | none => some (s.finish index read (.httpError .invalidModelsPayload))
      | some models =>
        some ({ s with modelsCache := some ⟨now, models⟩ }.finish index read (.models models))
  | _, _ => none

/-- The future of an operation is dropped. -/
def cancelOperation (jwt : JwtDecoder) (s : UpstreamClient) (index : Nat) (operation : Operation) :
    Option UpstreamClient :=
  let canceled := (s.unlockCache index).setOperation index { operation with phase := .gone }
  match operation.phase with
  | .authorizing caller | .refreshing caller =>
    (vaultStep jwt s.vault (.manager (.cancel caller))).map fun vault => { canceled with vault }
  | .returned _ | .gone => none
  | _ => some canceled

end UpstreamClient

/-- One step; `none` where the action is not possible. -/
def clientStep (jwt : JwtDecoder) (s : UpstreamClient) : ClientAction → Option UpstreamClient
  | .start .models =>
    some { s with operations := s.operations ++ [⟨.models, .locking, [], none, none⟩] }
  | .start target =>
    (vaultStep jwt s.vault (.manager .credentials)).map fun vault =>
      { s with
        vault
        operations := s.operations ++
          [⟨target, .authorizing s.vault.manager.callers.length, [], none, none⟩] }
  | .vault action =>
    if action.internal then (vaultStep jwt s.vault action).map fun vault => { s with vault }
    else none
  | .poll index now => do s.pollOperation jwt index now (← s.operations[index]?)
  | .reply index reply => do s.hearReply jwt index (← s.operations[index]?) reply
  | .body index payload => do s.readBody index (← s.operations[index]?) payload
  | .cancel index => do s.cancelOperation jwt index (← s.operations[index]?)

/-- The interleavings of operations and of the credentials they share. -/
abbrev ClientRun (jwt : JwtDecoder) := Run (ofFun (clientStep jwt))

/-! ### What a step does -/

/-- Whether an operation waits for what comes of a request. -/
def OperationPhase.awaiting : OperationPhase → Bool
  | .sending _ | .resending => true
  | _ => false

/-- Whether an operation is over. -/
def OperationPhase.ended : OperationPhase → Bool
  | .returned _ | .gone => true
  | _ => false

/-- How an operation returns without a list of models: what it has heard and read by then, and
with which result. -/
inductive Finishes (s : UpstreamClient) (operation : Operation) : Operation → OperationResult → Prop
  | credentials (caller : Nat) (error : CredentialError)
      (hphase : operation.phase = .authorizing caller) :
      Finishes s operation operation (operation.target.credentialsError error)
  | refresh (caller : Nat) (error : CredentialError)
      (hphase : operation.phase = .refreshing caller) :
      Finishes s operation operation (operation.target.refreshError error)
  | refused (caller : Nat) (credentials : CredentialSnapshot) (result : OperationResult)
      (hphase : operation.phase = .authorizing caller ∨ operation.phase = .refreshing caller)
      (hcaller : s.vault.manager.callers[caller]? = some (.returned (.ok credentials)))
      (hrefuses : operation.target.refuses credentials = some result) :
      Finishes s operation operation result
  | transport (hphase : operation.phase.awaiting = true) :
      Finishes s operation (operation.hear .failed) operation.target.transportError
  | rejected (hphase : operation.phase = .resending) :
      Finishes s operation (operation.hear (.status 401)) operation.target.rejected
  | response (code : Nat) (hphase : operation.phase.awaiting = true) (hcode : code ≠ 401)
      (htarget : operation.target = .post) :
      Finishes s operation (operation.hear (.status code)) (.response code)
  | connected (hphase : operation.phase.awaiting = true) (htarget : operation.target = .webSocket) :
      Finishes s operation (operation.hear (.status 101)) .connected
  | handshake (code : Nat) (hphase : operation.phase.awaiting = true) (hcode : code ≠ 401)
      (hswitch : code ≠ 101) (htarget : operation.target = .webSocket) :
      Finishes s operation (operation.hear (.status code)) (.webSocketError (.handshake code))
  | errorStatus (code : Nat) (hphase : operation.phase.awaiting = true) (hcode : code ≠ 401)
      (herror : 400 ≤ code ∧ code ≤ 599) (htarget : operation.target = .models) :
      Finishes s operation (operation.hear (.status code)) (.httpError .transport)
  | unread (hphase : operation.phase = .reading) :
      Finishes s operation { operation with payload := none } (.httpError .transport)
  | invalid (payload : Value) (hphase : operation.phase = .reading)
      (hmodels : modelsOfPayload payload = none) :
      Finishes s operation { operation with payload := some payload }
        (.httpError .invalidModelsPayload)

/-- What a step of an operation does. -/
inductive OperationMove (jwt : JwtDecoder) (s : UpstreamClient) (index : Nat)
    (operation : Operation) : UpstreamClient → Prop
  /-- The cache has a fresh list. -/
  | serve (now : OffsetDateTime) (cached : CachedModels) (hphase : operation.phase = .locking)
      (hfree : s.cacheHolder = none) (hcached : s.modelsCache = some cached)
      (hfresh : cached.fresh now = true) :
      OperationMove jwt s index operation (s.setOperation index
        { operation with now := some now, phase := .returned (.models cached.models) })
  /-- It has not, and the operation goes on with the lock. -/
  | fetch (now : OffsetDateTime) (vault : Vault) (hphase : operation.phase = .locking)
      (hfree : s.cacheHolder = none)
      (hstale : ∀ cached, s.modelsCache = some cached → cached.fresh now = false)
      (hvault : vaultStep jwt s.vault (.manager .credentials) = some vault) :
      OperationMove jwt s index operation
        { s.setOperation index
            { operation with
              now := some now
              phase := .authorizing s.vault.manager.callers.length } with
          vault
          cacheHolder := some index
          fetches := s.fetches ++ [index] }
  | send (caller : Nat) (credentials : CredentialSnapshot)
      (hphase : operation.phase = .authorizing caller)
      (hcaller : s.vault.manager.callers[caller]? = some (.returned (.ok credentials))) :
      OperationMove jwt s index operation (s.setOperation index
        { operation with
          phase := .sending credentials
          requests := operation.requests ++ [⟨credentials, none⟩] })
  /-- After a 401 the manager is called for a refresh of the generation that was rejected. -/
  | refresh (credentials : CredentialSnapshot) (vault : Vault)
      (hphase : operation.phase = .sending credentials)
      (hvault : vaultStep jwt s.vault
        (.manager (.refreshAfterUnauthorized credentials.generation)) = some vault) :
      OperationMove jwt s index operation
        { s.setOperation index
            { operation.hear (.status 401) with
              phase := .refreshing s.vault.manager.callers.length } with
          vault }
  | resend (caller : Nat) (credentials : CredentialSnapshot)
      (hphase : operation.phase = .refreshing caller)
      (hcaller : s.vault.manager.callers[caller]? = some (.returned (.ok credentials))) :
      OperationMove jwt s index operation (s.setOperation index
        { operation with
          phase := .resending
          requests := operation.requests ++ [⟨credentials, none⟩] })
  | read (code : Nat) (hphase : operation.phase.awaiting = true) (hcode : code ≠ 401)
      (herror : ¬ (400 ≤ code ∧ code ≤ 599)) (htarget : operation.target = .models) :
      OperationMove jwt s index operation (s.setOperation index
        { operation.hear (.status code) with phase := .reading })
  /-- A list arrives and is cached. -/
  | store (now : OffsetDateTime) (payload : Value) (models : List Value)
      (hphase : operation.phase = .reading) (hnow : operation.now = some now)
      (hmodels : modelsOfPayload payload = some models) :
      OperationMove jwt s index operation
        ({ s with modelsCache := some ⟨now, models⟩ }.finish index
          { operation with payload := some payload } (.models models))
  | finish (operation' : Operation) (result : OperationResult)
      (hfinish : Finishes s operation operation' result) :
      OperationMove jwt s index operation (s.finish index operation' result)
  | leave (vault : Vault) (hactive : operation.phase.ended = false)
      (hvault : vault = s.vault ∨ ∃ caller,
        vaultStep jwt s.vault (.manager (.cancel caller)) = some vault) :
      OperationMove jwt s index operation
        { (s.unlockCache index).setOperation index { operation with phase := .gone } with vault }

/-- What a step of the client does. -/
inductive ClientMove (jwt : JwtDecoder) (s : UpstreamClient) : UpstreamClient → Prop
  | queue : ClientMove jwt s
      { s with operations := s.operations ++ [⟨.models, .locking, [], none, none⟩] }
  | start (target : Target) (vault : Vault) (htarget : target ≠ .models)
      (hvault : vaultStep jwt s.vault (.manager .credentials) = some vault) :
      ClientMove jwt s
        { s with
          vault
          operations := s.operations ++
            [⟨target, .authorizing s.vault.manager.callers.length, [], none, none⟩] }
  | vault (action : VaultAction) (vault : Vault) (hvault : vaultStep jwt s.vault action = some vault) :
      ClientMove jwt s { s with vault }
  | operation (index : Nat) (operation : Operation) (t : UpstreamClient)
      (hoperation : s.operations[index]? = some operation)
      (hmove : OperationMove jwt s index operation t) : ClientMove jwt s t

section

variable {jwt : JwtDecoder} {s t : UpstreamClient} {index : Nat} {operation : Operation}

theorem outcomeOf_eq_ok {caller : Nat} {credentials : CredentialSnapshot}
    (h : s.outcomeOf caller = some (some (.ok credentials))) :
    s.vault.manager.callers[caller]? = some (.returned (.ok credentials)) := by
  unfold UpstreamClient.outcomeOf at h
  split at h
  · next outcome houtcome =>
    cases h
    exact houtcome
  · cases h
  · cases h

/-- A poll acts on a lock that is free, or on what the caller of the operation has come to. -/
theorem move_of_pollOperation {now : OffsetDateTime}
    (h : s.pollOperation jwt index now operation = some t) :
    OperationMove jwt s index operation t := by
  have hgone (hactive : operation.phase.ended = false) : OperationMove jwt s index operation
      ((s.unlockCache index).setOperation index { operation with phase := .gone }) :=
    .leave s.vault hactive (.inl rfl)
  cases hphase : operation.phase <;>
    simp only [UpstreamClient.pollOperation, hphase, reduceCtorEq] at h
  case locking =>
    split_ifs at h with hfree
    split at h
    · next cached hcached =>
      cases h
      obtain ⟨hcached, hfresh⟩ := Option.filter_eq_some_iff.mp hcached
      exact .serve now cached hphase hfree hcached hfresh
    · next hnone =>
      obtain ⟨vault, hvault, rfl⟩ := Option.map_eq_some_iff.mp h
      refine .fetch now vault hphase hfree (fun cached hcached => ?_) hvault
      rw [hcached] at hnone
      simpa using Option.filter_eq_none_iff.mp hnone cached rfl
  case authorizing caller =>
    have hactive : operation.phase.ended = false := by rw [hphase]; rfl
    split at h
    · next credentials houtcome =>
      have hcaller := outcomeOf_eq_ok houtcome
      cases h
      unfold UpstreamClient.send
      split
      · next result hrefuses =>
        exact .finish _ _ (.refused caller credentials result (.inl hphase) hcaller hrefuses)
      · exact .send caller credentials hphase hcaller
    · next error _ =>
      cases h
      exact .finish _ _ (.credentials caller error hphase)
    · cases h
      exact hgone hactive
    · cases h
  case refreshing caller =>
    have hactive : operation.phase.ended = false := by rw [hphase]; rfl
    split at h
    · next credentials houtcome =>
      have hcaller := outcomeOf_eq_ok houtcome
      cases h
      unfold UpstreamClient.send
      split
      · next result hrefuses =>
        exact .finish _ _ (.refused caller credentials result (.inr hphase) hcaller hrefuses)
      · exact .resend caller credentials hphase hcaller
    · next error _ =>
      cases h
      exact .finish _ _ (.refresh caller error hphase)
    · cases h
      exact hgone hactive
    · cases h

/-- A response that is no 401. -/
theorem move_of_answer {code : Nat} (hphase : operation.phase.awaiting = true) (hcode : code ≠ 401) :
    OperationMove jwt s index operation (s.answer index (operation.hear (.status code)) code) := by
  unfold UpstreamClient.answer
  split
  · next htarget => exact .finish _ _ (.response code hphase hcode htarget)
  · next htarget =>
    by_cases hswitch : code = 101
    · subst hswitch
      exact .finish _ _ (.connected hphase htarget)
    · rw [if_neg hswitch]
      exact .finish _ _ (.handshake code hphase hcode hswitch htarget)
  · next htarget =>
    split_ifs with herror
    · exact .finish _ _ (.errorStatus code hphase hcode herror htarget)
    · exact .read code hphase hcode herror htarget

theorem move_of_hearReply {reply : UpstreamReply}
    (h : s.hearReply jwt index operation reply = some t) : OperationMove jwt s index operation t := by
  cases hphase : operation.phase <;> cases reply <;>
    simp only [UpstreamClient.hearReply, hphase, reduceCtorEq] at h
  case sending.failed credentials =>
    cases h
    exact .finish _ _ (.transport (by rw [hphase]; rfl))
  case resending.failed =>
    cases h
    exact .finish _ _ (.transport (by rw [hphase]; rfl))
  case sending.status credentials code =>
    split_ifs at h with hcode
    · obtain ⟨vault, hvault, rfl⟩ := Option.map_eq_some_iff.mp h
      subst hcode
      exact .refresh credentials vault hphase hvault
    · cases h
      exact move_of_answer (by rw [hphase]; rfl) hcode
  case resending.status code =>
    split_ifs at h with hcode
    · cases h
      subst hcode
      exact .finish _ _ (.rejected hphase)
    · cases h
      exact move_of_answer (by rw [hphase]; rfl) hcode

/-- The body of a response is read under the lock, with the time of the lookup. -/
theorem move_of_readBody {payload : Option Value}
    (h : s.readBody index operation payload = some t) : OperationMove jwt s index operation t := by
  unfold UpstreamClient.readBody at h
  split at h
  · next now hphase hnow =>
    cases payload with
    | none =>
      cases h
      exact .finish _ _ (.unread hphase)
    | some payload =>
      simp only at h
      split at h
      · next hmodels =>
        cases h
        exact .finish _ _ (.invalid payload hphase hmodels)
      · next models hmodels =>
        cases h
        exact .store now payload models hphase hnow hmodels
  · cases h

theorem move_of_cancelOperation (h : s.cancelOperation jwt index operation = some t) :
    OperationMove jwt s index operation t := by
  have hcanceled (hactive : operation.phase.ended = false) : OperationMove jwt s index operation
      ((s.unlockCache index).setOperation index { operation with phase := .gone }) :=
    .leave s.vault hactive (.inl rfl)
  have hcaller (hactive : operation.phase.ended = false) (caller : Nat)
      (h : (vaultStep jwt s.vault (.manager (.cancel caller))).map
        (fun vault => { (s.unlockCache index).setOperation index
          { operation with phase := .gone } with vault }) = some t) :
      OperationMove jwt s index operation t := by
    obtain ⟨vault, hvault, rfl⟩ := Option.map_eq_some_iff.mp h
    exact .leave vault hactive (.inr ⟨caller, hvault⟩)
  cases hphase : operation.phase <;>
    simp only [UpstreamClient.cancelOperation, hphase, reduceCtorEq] at h
  case authorizing caller => exact hcaller (by rw [hphase]; rfl) caller h
  case refreshing caller => exact hcaller (by rw [hphase]; rfl) caller h
  all_goals
    cases h
    exact hcanceled (by rw [hphase]; rfl)

theorem clientMove_of_step {action : ClientAction} (h : clientStep jwt s action = some t) :
    ClientMove jwt s t := by
  cases action with
  | start target =>
    cases target with
    | models =>
      cases h
      exact .queue
    | post =>
      simp only [clientStep] at h
      obtain ⟨vault, hvault, rfl⟩ := Option.map_eq_some_iff.mp h
      exact .start .post vault (by simp) hvault
    | webSocket =>
      simp only [clientStep] at h
      obtain ⟨vault, hvault, rfl⟩ := Option.map_eq_some_iff.mp h
      exact .start .webSocket vault (by simp) hvault
  | vault action =>
    simp only [clientStep] at h
    split_ifs at h
    obtain ⟨vault, hvault, rfl⟩ := Option.map_eq_some_iff.mp h
    exact .vault action vault hvault
  | poll index now =>
    obtain ⟨operation, hoperation, h⟩ := Option.bind_eq_some_iff.mp h
    exact .operation index operation t hoperation (move_of_pollOperation h)
  | reply index reply =>
    obtain ⟨operation, hoperation, h⟩ := Option.bind_eq_some_iff.mp h
    exact .operation index operation t hoperation (move_of_hearReply h)
  | body index payload =>
    obtain ⟨operation, hoperation, h⟩ := Option.bind_eq_some_iff.mp h
    exact .operation index operation t hoperation (move_of_readBody h)
  | cancel index =>
    obtain ⟨operation, hoperation, h⟩ := Option.bind_eq_some_iff.mp h
    exact .operation index operation t hoperation (move_of_cancelOperation h)

end

end CodexApi
