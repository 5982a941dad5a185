import CodexApi.Upstream.Client

/-!
# Authenticated requests

What the requests of an operation carry, and how its result follows from what they came to. A run of
the client is a run of the credentials it shares (`exists_vaultRun`), so that the laws of the
credential manager apply to every operation. With them, by induction over the run, an operation
sends its request once, or twice: again only after a 401, and with credentials of a later
generation (`Attempts`).

`requests_authenticated` puts this together with where the credentials come from.
-/

namespace CodexApi

open Transition

/-! ### Credentials as headers -/

/-- Whether credentials can be carried in the headers of a request. -/
def Credential.FitsHeaders (credential : Credential) : Prop :=
  upstreamHeadersAreValid credential.accessToken credential.accountId = true

section

variable {jwt : JwtDecoder} {v : Vault} {as : List VaultAction} {credential : Credential}
  {row : CredentialsRow} {snapshot : CredentialSnapshot}

theorem fitsHeaders_of_refreshedCredential {current updated : Credential}
    {refreshed : RefreshResponse} {now : OffsetDateTime}
    (h : refreshedCredential jwt current refreshed now = .ok updated) : updated.FitsHeaders := by
  simp only [refreshedCredential, bind_eq_ok] at h
  obtain ⟨accessToken, -, refreshToken, -, h⟩ := h
  split at h
  · cases h
  · next hvalid =>
    cases h
    simpa [Credential.FitsHeaders] using hvalid

/-- The credentials in memory stay fit for headers: a refresh checks what it saves. -/
theorem fitsHeaders_run (hrow : credentialFromRow row = .ok credential)
    (hfits : credential.FitsHeaders) (h : VaultRun jwt (.loaded credential row) as v) :
    v.manager.credential.FitsHeaders := by
  refine h.history (P := fun _ u => u.manager.credential.FitsHeaders) hfits
    fun bs u b w hu hbefore hstep => ?_
  rcases (changes_of_step hstep).2 with ⟨-, -, hsame⟩ | ⟨-, index, rfl⟩
  · rw [hsame]
    exact hbefore
  · obtain ⟨hmanager, -, -, -⟩ := vaultStep_manager hstep
    obtain ⟨task, htask, hpoll⟩ := Option.bind_eq_some_iff.mp hmanager
    obtain ⟨task', hmove, -, -, -⟩ := taskMove_of_pollTask hpoll
    rcases hmove.generation with ⟨hother, -⟩ | ⟨-, -, -, exchange, hphase⟩
    · exact absurd rfl hother
    · obtain ⟨refreshed, now, -, hupdated⟩ :=
        ((records_run hrow hu).task index task htask).saving w.manager.credential
          (by rw [hphase]; rfl)
      exact fitsHeaders_of_refreshedCredential hupdated

/-- What was stored while the lock was free is what was in memory. -/
theorem WasStored.refuses_eq_none (hrow : credentialFromRow row = .ok credential)
    (hfits : credential.FitsHeaders) (h : WasStored jwt (.loaded credential row) as snapshot)
    (target : Target) : target.refuses snapshot = none := by
  obtain ⟨pre, post, u, stored, rfl, hu, hfree, ⟨row', hrow', hstored⟩, rfl⟩ := h
  have hconsistent := (consistent_loaded hrow).run hu
  obtain ⟨row'', hrow'', hmemory⟩ := hconsistent.stored (hconsistent.committed_eq_false hfree)
  obtain rfl : row' = row'' := Option.some.inj (hrow'.symm.trans hrow'')
  obtain rfl : stored = u.manager.credential := Except.ok.inj (hstored.symm.trans hmemory)
  have hvalid := fitsHeaders_run hrow hfits hu
  simp only [Credential.FitsHeaders, upstreamHeadersAreValid, Bool.and_eq_true] at hvalid
  simp [Target.refuses, hvalid.1, hvalid.2]

end

/-! ### The credentials of a run -/

section

variable {jwt : JwtDecoder} {s t start : UpstreamClient} {as : List ClientAction}

/-- A step of the client is at most one step of its credentials. -/
theorem vaultStep_of_move (h : ClientMove jwt s t) :
    t.vault = s.vault ∨ ∃ action, vaultStep jwt s.vault action = some t.vault := by
  cases h with
  | queue => exact .inl rfl
  | start target vault htarget hvault => exact .inr ⟨_, hvault⟩
  | vault action vault hvault => exact .inr ⟨_, hvault⟩
  | operation index operation t hoperation hmove =>
    cases hmove with
    | fetch now vault hphase hfree hstale hvault => exact .inr ⟨_, hvault⟩
    | refresh credentials vault hphase hvault => exact .inr ⟨_, hvault⟩
    | leave vault hactive hvault =>
      rcases hvault with rfl | ⟨caller, hvault⟩
      · exact .inl rfl
      · exact .inr ⟨_, hvault⟩
    | _ => exact .inl rfl

/-- What a run of the client does to its credentials, and that no moment of it is missed. -/
structure Shadows (jwt : JwtDecoder) (start : UpstreamClient) (as : List ClientAction)
    (bs : List VaultAction) (s : UpstreamClient) : Prop where
  run : VaultRun jwt start.vault bs s.vault
  moment : ∀ pre post, bs = pre ++ post → ∃ pre' post' u, as = pre' ++ post' ∧
    ClientRun jwt start pre' u ∧ VaultRun jwt start.vault pre u.vault

theorem Shadows.refl : Shadows jwt start [] [] start := by
  refine ⟨.nil _, fun pre post heq => ?_⟩
  obtain ⟨rfl, rfl⟩ := List.append_eq_nil_iff.mp heq.symm
  exact ⟨[], [], start, rfl, .nil _, .nil _⟩

theorem Shadows.stay {bs : List VaultAction} {action : ClientAction}
    (h : Shadows jwt start as bs s) (hvault : t.vault = s.vault) :
    Shadows jwt start (as ++ [action]) bs t := by
  refine ⟨hvault ▸ h.run, fun pre post heq => ?_⟩
  obtain ⟨pre', post', u, rfl, hu, hpre⟩ := h.moment pre post heq
  exact ⟨pre', post' ++ [action], u, List.append_assoc _ _ _, hu, hpre⟩

theorem Shadows.step {bs : List VaultAction} {action : ClientAction} {b : VaultAction}
    (h : Shadows jwt start as bs s) (hrun : ClientRun jwt start (as ++ [action]) t)
    (hvault : vaultStep jwt s.vault b = some t.vault) :
    Shadows jwt start (as ++ [action]) (bs ++ [b]) t := by
  have hlast : VaultRun jwt start.vault (bs ++ [b]) t.vault := h.run.append (.single hvault)
  refine ⟨hlast, fun pre post heq => ?_⟩
  rcases List.eq_nil_or_concat post with rfl | ⟨post', b', rfl⟩
  · rw [List.append_nil] at heq
    subst heq
    exact ⟨as ++ [action], [], t, (List.append_nil _).symm, hrun, hlast⟩
  · rw [List.concat_eq_append, ← List.append_assoc] at heq
    obtain ⟨pre', rest, u, rfl, hu, hpre⟩ := h.moment pre post' (List.append_inj_left' heq rfl)
    exact ⟨pre', rest ++ [action], u, List.append_assoc _ _ _, hu, hpre⟩

/-- The credentials were those of the table at a moment of the run when no task held the lock. -/
def WasCurrent (jwt : JwtDecoder) (start : UpstreamClient) (as : List ClientAction)
    (credentials : CredentialSnapshot) : Prop :=
  ∃ pre post u credential, as = pre ++ post ∧ ClientRun jwt start pre u ∧
    u.vault.manager.writer = none ∧ u.vault.Holds credential ∧
    credentials = ⟨credential.accessToken, credential.accountId, u.vault.manager.generation⟩

theorem Shadows.wasCurrent {bs : List VaultAction} {credentials : CredentialSnapshot}
    (h : Shadows jwt start as bs s) (hstored : WasStored jwt start.vault bs credentials) :
    WasCurrent jwt start as credentials := by
  obtain ⟨pre, post, v, credential, rfl, hv, hfree, hholds, rfl⟩ := hstored
  obtain ⟨pre', post', u, rfl, hu, hpre⟩ := h.moment pre post rfl
  obtain rfl : v = u.vault := hv.eq_of_ofFun hpre
  exact ⟨pre', post', u, credential, rfl, hu, hfree, hholds, rfl⟩

end

/-! ### Attempts -/

/-- The requests of an operation up to its last one: that one alone, or after a 401 of one with
credentials of an earlier generation. -/
inductive Attempts : List UpstreamRequest → UpstreamRequest → Prop
  | first (request : UpstreamRequest) : Attempts [request] request
  | second (rejected : CredentialSnapshot) (request : UpstreamRequest)
      (hlater : rejected.generation < request.credentials.generation) :
      Attempts [⟨rejected, some (.status 401)⟩, request] request

/-- What a response that is no 401 comes to, given the body of a response of `models`. -/
def Target.conclusion (target : Target) (code : Nat) (payload : Option Value) : OperationResult :=
  match target with
  | .post => .response code
  | .webSocket => if code = 101 then .connected else .webSocketError (.handshake code)
  | .models =>
    if 400 ≤ code ∧ code ≤ 599 then .httpError .transport
    else
      match payload with
      | none => .httpError .transport
      | some payload =>
        match modelsOfPayload payload with
        | none => .httpError .invalidModelsPayload
        | some found => .models found

/-- What the result of an operation says about its requests. -/
inductive Reports (target : Target) (requests : List UpstreamRequest) (payload : Option Value) :
    OperationResult → Prop
  | credentials (error : CredentialError) (hrequests : requests = []) :
      Reports target requests payload (target.credentialsError error)
  /-- The list was in the cache. -/
  | cached (models : List Value) (htarget : target = .models) (hrequests : requests = [])
      (hpayload : payload = none) : Reports target requests payload (.models models)
  | refresh (error : CredentialError) (rejected : CredentialSnapshot)
      (hrequests : requests = [⟨rejected, some (.status 401)⟩]) :
      Reports target requests payload (target.refreshError error)
  | rejected (credentials : CredentialSnapshot)
      (hattempts : Attempts requests ⟨credentials, some (.status 401)⟩)
      (htwo : requests.length = 2) : Reports target requests payload target.rejected
  | transport (credentials : CredentialSnapshot)
      (hattempts : Attempts requests ⟨credentials, some .failed⟩) :
      Reports target requests payload target.transportError
  | response (credentials : CredentialSnapshot) (code : Nat)
      (hattempts : Attempts requests ⟨credentials, some (.status code)⟩) (hcode : code ≠ 401) :
      Reports target requests payload (target.conclusion code payload)

/-- How many requests an operation has sent by the phase it is in, and what came of them. -/
def OperationPhase.Keeps (v : Vault) (operation : Operation) : OperationPhase → Prop
  | .locking => operation.target = .models ∧ operation.requests = [] ∧ operation.payload = none
  | .authorizing _ => operation.requests = []
  | .sending credentials => operation.requests = [⟨credentials, none⟩]
  | .refreshing caller => ∃ rejected, operation.requests = [⟨rejected, some (.status 401)⟩] ∧
      v.manager.Recovering caller rejected.generation
  | .resending => ∃ rejected credentials, rejected.generation < credentials.generation ∧
      operation.requests = [⟨rejected, some (.status 401)⟩, ⟨credentials, none⟩]
  | .reading => operation.target = .models ∧ ∃ credentials code, code ≠ 401 ∧
      ¬ (400 ≤ code ∧ code ≤ 599) ∧
      Attempts operation.requests ⟨credentials, some (.status code)⟩
  | .returned result => Reports operation.target operation.requests operation.payload result
  | .gone => operation.requests = [] ∨ ∃ last, Attempts operation.requests last

/-- An operation has sent what its phase says. -/
def Operation.Kept (operation : Operation) (v : Vault) : Prop :=
  operation.phase.Keeps v operation

section

variable {jwt : JwtDecoder} {v w : Vault} {operation operation' : Operation}

/-- What comes of the last request of an operation that waits for it. -/
theorem Operation.Kept.hear (h : operation.Kept v) (hphase : operation.phase.awaiting = true)
    (reply : UpstreamReply) :
    ∃ credentials, Attempts (operation.hear reply).requests ⟨credentials, some reply⟩ ∧
      (operation.phase = .resending → (operation.hear reply).requests.length = 2) := by
  cases hwas : operation.phase with
  | sending credentials =>
    have hrequests : operation.requests = [⟨credentials, none⟩] := by
      simpa [Operation.Kept, OperationPhase.Keeps, hwas] using h
    refine ⟨credentials, ?_, fun hresending => by cases hresending⟩
    rw [Operation.hear, hrequests]
    exact .first _
  | resending =>
    obtain ⟨rejected, credentials, hlater, hrequests⟩ :
        ∃ rejected credentials : CredentialSnapshot,
          rejected.generation < credentials.generation ∧
            operation.requests = [⟨rejected, some (.status 401)⟩, ⟨credentials, none⟩] := by
      simpa [Operation.Kept, OperationPhase.Keeps, hwas] using h
    refine ⟨credentials, ?_, fun _ => ?_⟩
    · rw [Operation.hear, hrequests]
      exact .second rejected _ hlater
    · rw [Operation.hear, hrequests]
      rfl
  | _ =>
    rw [hwas] at hphase
    cases hphase

/-- Whatever its phase, an operation has sent nothing, or once, or twice. -/
theorem Operation.Kept.attempts (h : operation.Kept v) :
    operation.requests = [] ∨ ∃ last, Attempts operation.requests last := by
  cases hphase : operation.phase <;>
    simp only [Operation.Kept, OperationPhase.Keeps, hphase] at h
  case locking => exact .inl h.2.1
  case authorizing => exact .inl h
  case sending => exact .inr ⟨_, by rw [h]; exact .first _⟩
  case refreshing =>
    obtain ⟨rejected, hrequests, -⟩ := h
    exact .inr ⟨_, by rw [hrequests]; exact .first _⟩
  case resending =>
    obtain ⟨rejected, credentials, hlater, hrequests⟩ := h
    exact .inr ⟨⟨credentials, none⟩, by rw [hrequests]; exact .second rejected _ hlater⟩
  case reading =>
    obtain ⟨-, credentials, code, -, -, hattempts⟩ := h
    exact .inr ⟨_, hattempts⟩
  case returned result =>
    cases h with
    | credentials error hrequests => exact .inl hrequests
    | cached models htarget hrequests hpayload => exact .inl hrequests
    | refresh error rejected hrequests => exact .inr ⟨_, by rw [hrequests]; exact .first _⟩
    | rejected credentials hattempts => exact .inr ⟨_, hattempts⟩
    | transport credentials hattempts => exact .inr ⟨_, hattempts⟩
    | response credentials code hattempts => exact .inr ⟨_, hattempts⟩
  case gone => exact h

/-- The credentials move on under an operation that stays where it is. -/
theorem Operation.Kept.frame (h : operation.Kept v) (hforward : v.manager.Forward)
    (hvault : w = v ∨ ∃ action, vaultStep jwt v action = some w) : operation.Kept w := by
  rcases hvault with rfl | ⟨action, hstep⟩
  · exact h
  cases hphase : operation.phase <;>
    simp only [Operation.Kept, OperationPhase.Keeps, hphase] at h ⊢
  case refreshing caller =>
    obtain ⟨rejected, hrequests, hrecovering⟩ := h
    exact ⟨rejected, hrequests, recovering_run hforward hrecovering (.single hstep)⟩
  all_goals exact h

end

/-! ### Steps of an operation -/

section

variable {jwt : JwtDecoder} {s t : UpstreamClient} {bs : List VaultAction} {index : Nat}
  {operation operation' : Operation} {result : OperationResult} {credential : Credential}
  {row : CredentialsRow}

/-- An operation that returns reports what its requests came to, unless its credentials could not be
put into headers. -/
theorem Finishes.reports (h : Finishes s operation operation' result) (hkept : operation.Kept s.vault)
    (hrefuses : ∀ (caller : Nat) (credentials : CredentialSnapshot),
      s.vault.manager.callers[caller]? = some (.returned (.ok credentials)) →
        operation.target.refuses credentials = none) :
    Reports operation'.target operation'.requests operation'.payload result := by
  have hconclude {code : Nat} (hphase : operation.phase.awaiting = true) (hcode : code ≠ 401) :
      Reports operation.target (operation.hear (.status code)).requests operation.payload
        (operation.target.conclusion code operation.payload) := by
    obtain ⟨credentials, hattempts, -⟩ := hkept.hear hphase (.status code)
    exact .response credentials code hattempts hcode
  cases h with
  | credentials caller error hphase =>
    simp only [Operation.Kept, OperationPhase.Keeps, hphase] at hkept
    exact .credentials error hkept
  | refresh caller error hphase =>
    simp only [Operation.Kept, OperationPhase.Keeps, hphase] at hkept
    obtain ⟨rejected, hrequests, -⟩ := hkept
    exact .refresh error rejected hrequests
  | refused caller credentials result hphase hcaller hrefused =>
    rw [hrefuses caller credentials hcaller] at hrefused
    cases hrefused
  | transport hphase =>
    obtain ⟨credentials, hattempts, -⟩ := hkept.hear hphase .failed
    exact .transport credentials hattempts
  | rejected hphase =>
    obtain ⟨credentials, hattempts, htwo⟩ := hkept.hear (by rw [hphase]; rfl) (.status 401)
    exact .rejected credentials hattempts (htwo hphase)
  | response code hphase hcode htarget =>
    have hreports := hconclude hphase hcode
    simpa [Operation.hear, htarget, Target.conclusion] using hreports
  | connected hphase htarget =>
    have hcode : (101 : Nat) ≠ 401 := by decide
    have hreports := hconclude hphase hcode
    simpa [Operation.hear, htarget, Target.conclusion] using hreports
  | handshake code hphase hcode hswitch htarget =>
    have hreports := hconclude hphase hcode
    simpa [Operation.hear, htarget, Target.conclusion, hswitch] using hreports
  | errorStatus code hphase hcode herror htarget =>
    have hreports := hconclude hphase hcode
    simpa [Operation.hear, htarget, Target.conclusion, herror] using hreports
  | unread hphase =>
    simp only [Operation.Kept, OperationPhase.Keeps, hphase] at hkept
    obtain ⟨htarget, credentials, code, hcode, herror, hattempts⟩ := hkept
    have hreports : Reports operation.target operation.requests none _ :=
      .response credentials code hattempts hcode
    simpa [htarget, Target.conclusion, herror] using hreports
  | invalid payload hphase hmodels =>
    simp only [Operation.Kept, OperationPhase.Keeps, hphase] at hkept
    obtain ⟨htarget, credentials, code, hcode, herror, hattempts⟩ := hkept
    have hreports : Reports operation.target operation.requests (some payload) _ :=
      .response credentials code hattempts hcode
    simpa [htarget, Target.conclusion, herror, hmodels] using hreports

end

/-! ### What a run keeps -/

section

variable {jwt : JwtDecoder} {s t : UpstreamClient} {as : List ClientAction} {bs : List VaultAction}
  {index : Nat} {operation : Operation} {credential : Credential} {row : CredentialsRow}

/-- The operations have sent what their phases say, and only credentials that were stored. -/
structure UpstreamClient.Sound (jwt : JwtDecoder) (start : Vault) (bs : List VaultAction)
    (s : UpstreamClient) : Prop where
  kept : ∀ (i : Nat) (operation : Operation), s.operations[i]? = some operation →
    operation.Kept s.vault
  stored : ∀ (i : Nat) (operation : Operation), s.operations[i]? = some operation →
    ∀ request ∈ operation.requests, WasStored jwt start bs request.credentials

/-- A call after a 401 of a generation that was reached recovers from it. -/
theorem recovering_of_call {u w : ManagerState} {failedGeneration : Nat}
    (hle : failedGeneration ≤ u.generation)
    (h : managerStep jwt u (.refreshAfterUnauthorized failedGeneration) = some w) :
    w.Recovering u.callers.length failedGeneration := by
  cases h
  refine ⟨hle, by simp, fun phase hphase => ?_⟩
  obtain rfl : CallerPhase.locking failedGeneration .unauthorized = phase := by simpa using hphase
  exact ⟨rfl, rfl⟩

/-- A request carries the credentials of an earlier one, or what the manager has handed out. -/
def UpstreamClient.Supplies (s : UpstreamClient) (operation : Operation)
    (request : UpstreamRequest) : Prop :=
  (∃ request' ∈ operation.requests, request.credentials = request'.credentials) ∨
    ∃ caller : Nat, s.vault.manager.callers[caller]? = some (.returned (.ok request.credentials))

/-- The requests after a step of an operation. -/
theorem OperationMove.supplies (h : OperationMove jwt s index operation t) :
    ∃ operation', t.operations = s.operations.set index operation' ∧
      ∀ request ∈ operation'.requests, s.Supplies operation request := by
  have hkeep : ∀ request ∈ operation.requests, s.Supplies operation request :=
    fun request hrequest => .inl ⟨request, hrequest, rfl⟩
  have hhear (reply : UpstreamReply) :
      ∀ request ∈ (operation.hear reply).requests, s.Supplies operation request := by
    intro request hrequest
    obtain ⟨i, hi⟩ := List.mem_iff_getElem?.mp hrequest
    rcases getElem?_modify_cases hi with ⟨-, old, hold, rfl⟩ | ⟨-, hold⟩
    · exact .inl ⟨old, List.mem_of_getElem? hold, rfl⟩
    · exact hkeep request (List.mem_of_getElem? hold)
  have hsend {caller : Nat} {credentials : CredentialSnapshot}
      (hcaller : s.vault.manager.callers[caller]? = some (.returned (.ok credentials))) :
      ∀ request ∈ operation.requests ++ [⟨credentials, none⟩], s.Supplies operation request := by
    intro request hrequest
    rcases List.mem_append.mp hrequest with hold | hnew
    · exact hkeep request hold
    · rw [List.mem_singleton.mp hnew]
      exact .inr ⟨caller, hcaller⟩
  cases h with
  | serve => exact ⟨_, rfl, hkeep⟩
  | fetch => exact ⟨_, rfl, hkeep⟩
  | send caller credentials hphase hcaller => exact ⟨_, rfl, hsend hcaller⟩
  | refresh => exact ⟨_, rfl, hhear _⟩
  | resend caller credentials hphase hcaller => exact ⟨_, rfl, hsend hcaller⟩
  | read => exact ⟨_, rfl, hhear _⟩
  | store => exact ⟨_, rfl, hkeep⟩
  | leave => exact ⟨_, rfl, hkeep⟩
  | finish operation' result hfinish =>
    refine ⟨_, rfl, ?_⟩
    cases hfinish with
    | credentials => exact hkeep
    | refresh => exact hkeep
    | refused => exact hkeep
    | unread => exact hkeep
    | invalid => exact hkeep
    | _ => exact hhear _

/-- An operation that moves has sent what its new phase says. -/
theorem OperationMove.kept (h : OperationMove jwt s index operation t)
    (hkept : operation.Kept s.vault)
    (hle : ∀ request ∈ operation.requests,
      request.credentials.generation ≤ s.vault.manager.generation)
    (hrefuses : ∀ (caller : Nat) (credentials : CredentialSnapshot),
      s.vault.manager.callers[caller]? = some (.returned (.ok credentials)) →
        operation.target.refuses credentials = none) :
    ∃ operation', t.operations = s.operations.set index operation' ∧ operation'.Kept t.vault := by
  cases h with
  | serve now cached hphase =>
    simp only [Operation.Kept, OperationPhase.Keeps, hphase] at hkept
    exact ⟨_, rfl, .cached cached.models hkept.1 hkept.2.1 hkept.2.2⟩
  | fetch now vault hphase =>
    simp only [Operation.Kept, OperationPhase.Keeps, hphase] at hkept
    exact ⟨_, rfl, hkept.2.1⟩
  | send caller credentials hphase =>
    simp only [Operation.Kept, OperationPhase.Keeps, hphase] at hkept
    refine ⟨_, rfl, ?_⟩
    simp [Operation.Kept, OperationPhase.Keeps, hkept]
  | refresh credentials vault hphase hvault =>
    simp only [Operation.Kept, OperationPhase.Keeps, hphase] at hkept
    refine ⟨_, rfl, credentials, by simp [Operation.hear, hkept], ?_⟩
    have hle : credentials.generation ≤ s.vault.manager.generation :=
      hle ⟨credentials, none⟩ (by simp [hkept])
    obtain ⟨hmanager, -, -, -⟩ := vaultStep_manager hvault
    -- The new caller is the last one, and waits for the flight lock.
    exact recovering_of_call hle hmanager
  | resend caller credentials hphase hcaller =>
    simp only [Operation.Kept, OperationPhase.Keeps, hphase] at hkept
    obtain ⟨rejected, hrequests, hrecovering⟩ := hkept
    have hlater : rejected.generation < credentials.generation :=
      hrecovering.phase _ hcaller credentials rfl
    exact ⟨_, rfl, rejected, credentials, hlater, by simp [hrequests]⟩
  | read code hphase hcode herror htarget =>
    obtain ⟨credentials, hattempts, -⟩ := hkept.hear hphase (.status code)
    exact ⟨_, rfl, htarget, credentials, code, hcode, herror, hattempts⟩
  | store now payload models hphase hnow hmodels =>
    simp only [Operation.Kept, OperationPhase.Keeps, hphase] at hkept
    obtain ⟨htarget, credentials, code, hcode, herror, hattempts⟩ := hkept
    have hreports : Reports operation.target operation.requests (some payload) _ :=
      .response credentials code hattempts hcode
    refine ⟨_, rfl, ?_⟩
    simpa [Operation.Kept, OperationPhase.Keeps, htarget, Target.conclusion, herror, hmodels]
      using hreports
  | finish operation' result hfinish =>
    refine ⟨_, rfl, ?_⟩
    exact hfinish.reports hkept hrefuses
  | leave vault hactive hvault =>
    exact ⟨_, rfl, hkept.attempts⟩

theorem UpstreamClient.Sound.step {bs' : List VaultAction}
    (hrow : credentialFromRow row = .ok credential) (hfits : credential.FitsHeaders)
    (hrun : VaultRun jwt (.loaded credential row) bs s.vault)
    (hs : s.Sound jwt (.loaded credential row) bs) (h : ClientMove jwt s t) (hbs : bs <+: bs') :
    t.Sound jwt (.loaded credential row) bs' := by
  have hforward : s.vault.manager.Forward := (forward_run forward_loaded hrun).1
  have hvault := vaultStep_of_move h
  have hhanded := (handedOut_run hrow hrun).callers
  have hrun' : VaultRun jwt (.loaded credential row) (bs ++ []) s.vault := by
    rwa [List.append_nil]
  obtain ⟨cs, rfl⟩ := hbs
  have hold : ∀ (i : Nat) (operation : Operation), s.operations[i]? = some operation →
      operation.Kept t.vault ∧ ∀ request ∈ operation.requests,
        WasStored jwt (.loaded credential row) (bs ++ cs) request.credentials :=
    fun i operation hoperation => ⟨(hs.kept i operation hoperation).frame hforward hvault,
      fun request hrequest => (hs.stored i operation hoperation request hrequest).append cs⟩
  have hsound : ∀ (i : Nat) (operation : Operation), t.operations[i]? = some operation →
      operation.Kept t.vault ∧ ∀ request ∈ operation.requests,
        WasStored jwt (.loaded credential row) (bs ++ cs) request.credentials := by
    intro i found hfound
    cases h with
    | queue =>
      rcases getElem?_append_singleton_cases hfound with hfound | ⟨-, rfl⟩
      · exact hold i found hfound
      · exact ⟨⟨rfl, rfl, rfl⟩, by simp⟩
    | start =>
      rcases getElem?_append_singleton_cases hfound with hfound | ⟨-, rfl⟩
      · exact hold i found hfound
      · exact ⟨rfl, by simp⟩
    | vault => exact hold i found hfound
    | operation index operation t hoperation hmove =>
      have hkept := hs.kept index operation hoperation
      have hstored := hs.stored index operation hoperation
      obtain ⟨operation', hset, hsupplies⟩ := hmove.supplies
      obtain ⟨operation'', hset', hkept'⟩ := hmove.kept hkept
        (fun request hrequest => (hstored request hrequest).generation_le forward_loaded
          hrun')
        fun caller credentials hcaller =>
          (hhanded caller credentials hcaller).refuses_eq_none hrow hfits operation.target
      have hlt : index < s.operations.length := (List.getElem?_eq_some_iff.mp hoperation).1
      obtain rfl : operation'' = operation' := by
        have hsame := congrArg (·[index]?) (hset'.symm.trans hset)
        simpa [hlt] using hsame
      rw [hset] at hfound
      rcases getElem?_set_cases hfound with ⟨rfl, rfl⟩ | ⟨-, hother⟩
      · refine ⟨hkept', fun request hrequest => ?_⟩
        rcases hsupplies request hrequest with ⟨request', hrequest', heq⟩ | ⟨caller, hcaller⟩
        · rw [heq]
          exact (hstored request' hrequest').append cs
        · exact (hhanded caller _ hcaller).append cs
      · exact hold i found hother
  exact ⟨fun i operation hoperation => (hsound i operation hoperation).1,
    fun i operation hoperation => (hsound i operation hoperation).2⟩

/-- A run of the client is a run of its credentials, and keeps its operations sound. -/
theorem exists_shadow (hrow : credentialFromRow row = .ok credential)
    (hfits : credential.FitsHeaders) (h : ClientRun jwt (.init (.loaded credential row)) as s) :
    ∃ bs, Shadows jwt (.init (.loaded credential row)) as bs s ∧
      s.Sound jwt (.loaded credential row) bs := by
  refine h.history (P := fun as s => ∃ bs, Shadows jwt (.init (.loaded credential row)) as bs s ∧
    s.Sound jwt (.loaded credential row) bs) ⟨[], .refl, ?_, ?_⟩ fun as u action t hu hbefore hstep => ?_
  · intro i operation hoperation
    simp [UpstreamClient.init] at hoperation
  · intro i operation hoperation
    simp [UpstreamClient.init] at hoperation
  obtain ⟨bs, hshadow, hsound⟩ := hbefore
  have hmove := clientMove_of_step hstep
  have hrun : ClientRun jwt (.init (.loaded credential row)) (as ++ [action]) t :=
    hu.append (.single hstep)
  rcases vaultStep_of_move hmove with hsame | ⟨b, hvault⟩
  · exact ⟨bs, hshadow.stay hsame, hsound.step hrow hfits hshadow.run hmove List.prefix_rfl⟩
  · exact ⟨bs ++ [b], hshadow.step hrun hvault,
      hsound.step hrow hfits hshadow.run hmove (List.prefix_append bs [b])⟩

/-- What holds of an operation, however its requests and those of others interleave with refreshes
and cancellations. -/
structure OperationLaws (jwt : JwtDecoder) (start : UpstreamClient) (as : List ClientAction)
    (operation : Operation) : Prop where
  /-- It has sent nothing, or its request once, or again after a 401 with later credentials. -/
  attempts : operation.requests = [] ∨ ∃ last, Attempts operation.requests last
  /-- What a request carried was stored, and the generation is the one it was stored with. -/
  current : ∀ request ∈ operation.requests, WasCurrent jwt start as request.credentials
  /-- The result says what the requests came to; it is never about unfit headers. -/
  reports : ∀ result, operation.phase = .returned result →
    Reports operation.target operation.requests operation.payload result

end

/-! ### A rotation under a request -/

/-- A request is rejected and sent again with the credentials of a refresh. -/
def rotatedRequest : List ClientAction :=
  let now := hundredSeconds
  let manager := fun action => ClientAction.vault (.manager action)
  [.start .post, manager (.caller 0 now), manager (.caller 0 now), .poll 0 now,
    .reply 0 (.status 401), manager (.caller 1 now), manager (.caller 1 now),
    manager (.task 0 (.poll now)), manager (.task 0 (.status 200)),
    manager (.task 0 (.body (some rotation))), manager (.task 0 (.poll now)), .vault (.commit 0),
    manager (.task 0 (.save (.ok ()))), manager (.task 0 (.poll now)), manager (.caller 1 now),
    .poll 0 now, .reply 0 (.status 200)]

/-- The call after the rotation. -/
def rotatedOperation : Operation where
  target := .post
  phase := .returned (.response 200)
  requests :=
    [⟨⟨"access", "account", 0⟩, some (.status 401)⟩,
      ⟨⟨"rotated access", "account", 1⟩, some (.status 200)⟩]
  now := none
  payload := none

end CodexApi
