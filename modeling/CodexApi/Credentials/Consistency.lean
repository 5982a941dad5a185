import CodexApi.Credentials.Vault

/-!
# Consistent credentials

What holds in every run of a process over its credentials. Memory and table agree unless a task
saves (`Vault.Consistent`); a task only concludes with a generation beyond the one it was started
for (`ManagerState.Forward`); a task that fails has committed nothing (`TaskRecord`); and what is
handed out was one stored credential (`WasStored`). `credentials_consistent` puts them together.
-/

namespace CodexApi

open Transition

/-! ### Memory and table -/

/-- The table holds a credential. -/
def Vault.Holds (v : Vault) (credential : Credential) : Prop :=
  ∃ row, v.stored = some row ∧ credentialFromRow row = .ok credential

/-- A task waits for `save_credentials`. -/
def ManagerState.Saving (s : ManagerState) (index : Nat) (updated : Credential) : Prop :=
  ∃ task, s.tasks[index]? = some task ∧ task.phase.updated = some updated

/-- The table holds the credential in memory, or the one that the writer is saving. -/
structure Vault.Consistent (v : Vault) : Prop where
  writer_of_saving : ∀ index updated, v.manager.Saving index updated → v.manager.writer = some index
  stored : v.committed = false → v.Holds v.manager.credential
  ahead : v.committed = true →
    ∃ index updated, v.manager.Saving index updated ∧ v.Holds updated

section

variable {jwt : JwtDecoder} {s t : ManagerState} {v w : Vault} {action : ManagerAction}
  {credential updated : Credential} {row : CredentialsRow} {index : Nat}

theorem holds_of_loadOrImport {seed : CredentialSeed} {stored : Option CredentialsRow}
    (h : loadOrImportCredentials seed stored = .ok (credential, row)) :
    credentialFromRow row = .ok credential := by
  cases stored with
  | none =>
    obtain ⟨imported, himported, h⟩ := bind_eq_ok.mp h
    cases h
    exact credentialFromRow_of_credentialsRow himported
  | some old =>
    obtain ⟨current, hcurrent, h⟩ := bind_eq_ok.mp h
    split_ifs at h
    · obtain ⟨imported, himported, h⟩ := bind_eq_ok.mp h
      cases h
      exact credentialFromRow_of_credentialsRow himported
    · cases h
      exact hcurrent

/-- The actions of a manager within a process. -/
theorem vaultStep_manager (h : vaultStep jwt v (.manager action) = some w) :
    managerStep jwt v.manager action = some w.manager ∧ w.stored = v.stored ∧
      (∀ ok, action.saveResult = some ok → v.committed = ok) ∧
      w.committed = (v.committed && action.saveResult.isNone) := by
  simp only [vaultStep] at h
  split_ifs at h with hresult
  obtain ⟨manager, hmanager, rfl⟩ := Option.map_eq_some_iff.mp h
  exact ⟨hmanager, rfl, fun ok hok => hresult ok hok, rfl⟩

theorem vaultStep_commit (h : vaultStep jwt v (.commit index) = some w) :
    ∃ exchange updated task, v.manager.tasks[index]? = some task ∧
      task.phase = .saving exchange updated ∧ v.committed = false ∧ w.manager = v.manager ∧
      w.committed = true ∧ w.Holds updated := by
  obtain ⟨task, htask, h⟩ := Option.bind_eq_some_iff.mp h
  split at h
  case h_2 => cases h
  case h_1 exchange updated hphase hcommitted =>
    split at h
    case h_2 => cases h
    case h_1 row hsave =>
      cases h
      exact ⟨exchange, updated, task, htask, hphase, hcommitted, rfl, rfl, row, rfl,
        credentialFromRow_of_credentialsRow (saveCredentials_eq_ok.mp hsave).1⟩

theorem shared_eq {generation : Nat} {writer : Option Nat}
    (h : t.shared = (credential, generation, writer)) :
    t.credential = credential ∧ t.generation = generation ∧ t.writer = writer := by
  simpa [ManagerState.shared] using h

theorem shared_eq_shared (h : t.shared = s.shared) :
    t.credential = s.credential ∧ t.generation = s.generation ∧ t.writer = s.writer :=
  shared_eq h

theorem updated_of_pending {phase : TaskPhase} (h : phase.pending = true) : phase.updated = none := by
  cases phase <;> first | rfl | cases h

/-- After a task moved, it saves if its new phase does; the others save as before. -/
theorem saving_set_iff {task task' : RefreshTask} {i : Nat} (htask : s.tasks[index]? = some task)
    (htasks : t.tasks = s.tasks.set index task') :
    t.Saving i updated ↔
      (i = index ∧ task'.phase.updated = some updated) ∨ (i ≠ index ∧ s.Saving i updated) := by
  have hlt : index < s.tasks.length := (List.getElem?_eq_some_iff.mp htask).1
  unfold ManagerState.Saving
  rw [htasks]
  constructor
  · rintro ⟨found, hfound, hphase⟩
    rcases getElem?_set_cases hfound with ⟨rfl, rfl⟩ | ⟨hne, hold⟩
    · exact .inl ⟨rfl, hphase⟩
    · exact .inr ⟨hne, found, hold, hphase⟩
  · rintro (⟨rfl, hphase⟩ | ⟨hne, found, hold, hphase⟩)
    · exact ⟨task', List.getElem?_set_self hlt, hphase⟩
    · exact ⟨found, by rw [List.getElem?_set_ne hne.symm, hold], hphase⟩

theorem saving_append_iff {task : RefreshTask} {i : Nat} (hphase : task.phase.updated = none)
    (htasks : t.tasks = s.tasks ++ [task]) : t.Saving i updated ↔ s.Saving i updated := by
  unfold ManagerState.Saving
  rw [htasks]
  constructor
  · rintro ⟨found, hfound, hupdated⟩
    rcases getElem?_append_singleton_cases hfound with hold | ⟨-, rfl⟩
    · exact ⟨found, hold, hupdated⟩
    · rw [hphase] at hupdated
      cases hupdated
  · rintro ⟨found, hold, hupdated⟩
    exact ⟨found, getElem?_append_of_some _ hold, hupdated⟩

/-- While nothing is saved, and no transaction ends, the relation of memory and table stays. -/
theorem Vault.Consistent.frame (hv : v.Consistent)
    (hsaving : ∀ i updated, w.manager.Saving i updated ↔ v.manager.Saving i updated)
    (hshared : w.manager.shared = v.manager.shared) (hstored : w.stored = v.stored)
    (hcommitted : w.committed = v.committed) : w.Consistent := by
  obtain ⟨hcredential, -, hwriter⟩ := shared_eq_shared hshared
  refine ⟨fun i updated hi => ?_, fun hfalse => ?_, fun htrue => ?_⟩
  · rw [hwriter]
    exact hv.writer_of_saving i updated ((hsaving i updated).mp hi)
  · have hholds := hv.stored (hcommitted ▸ hfalse)
    simpa only [Vault.Holds, hstored, hcredential] using hholds
  · obtain ⟨i, updated, hi, hholds⟩ := hv.ahead (hcommitted ▸ htrue)
    refine ⟨i, updated, (hsaving i updated).mpr hi, ?_⟩
    simpa only [Vault.Holds, hstored] using hholds

theorem Vault.Consistent.not_saving (hv : v.Consistent) (hfree : v.manager.writer = none) :
    ¬ v.manager.Saving index updated := by
  intro hsaving
  have hwriter := hv.writer_of_saving index updated hsaving
  rw [hfree] at hwriter
  cases hwriter

/-- The table is ahead of the memory only while the writer holds the lock. -/
theorem Vault.Consistent.committed_eq_false (hv : v.Consistent) (hfree : v.manager.writer = none) :
    v.committed = false := by
  cases hcommitted : v.committed with
  | false => rfl
  | true =>
    obtain ⟨i, updated, hsaving, -⟩ := hv.ahead hcommitted
    exact absurd hsaving (hv.not_saving hfree)

theorem Vault.Consistent.step {a : VaultAction} (hv : v.Consistent)
    (h : vaultStep jwt v a = some w) : w.Consistent := by
  cases a with
  | commit index =>
    obtain ⟨exchange, updated, task, htask, hphase, hcommitted, hmanager, hafter, hholds⟩ :=
      vaultStep_commit h
    refine ⟨?_, fun hfalse => ?_, fun _ => ⟨index, updated, ⟨task, ?_, by rw [hphase]; rfl⟩, hholds⟩⟩
    · rw [hmanager]
      exact hv.writer_of_saving
    · rw [hafter] at hfalse
      cases hfalse
    · rw [hmanager, htask]
  | manager action =>
    obtain ⟨hmanager, hstored, hresult, hcommitted⟩ := vaultStep_manager h
    cases managerMove_of_step hmanager with
    | frame hsave hshared hflight htasks =>
      refine hv.frame (fun i updated => ?_) hshared hstored (by simp [hcommitted, hsave])
      rw [ManagerState.Saving, htasks]
      rfl
    | spawn hsave hshared hflight htasks =>
      exact hv.frame (fun i updated => saving_append_iff rfl htasks) hshared hstored
        (by simp [hcommitted, hsave])
    | task index event task task' htask hmove hflight htasks =>
      -- A task that neither was saving nor is.
      have hquiet : task.phase.updated = none → task'.phase.updated = none →
          w.manager.shared = v.manager.shared → w.committed = v.committed → w.Consistent := by
        intro hwas hnow hshared hcommitted
        refine hv.frame (fun i updated => ?_) hshared hstored hcommitted
        rw [saving_set_iff htask htasks]
        constructor
        · rintro (⟨-, hphase⟩ | ⟨-, hold⟩)
          · rw [hnow] at hphase
            cases hphase
          · exact hold
        · intro hold
          refine .inr ⟨?_, hold⟩
          rintro rfl
          obtain ⟨found, hfound, hphase⟩ := hold
          rw [htask] at hfound
          cases hfound
          rw [hwas] at hphase
          cases hphase
      have hunsaved : (∀ result, event ≠ .save result) → w.committed = v.committed := by
        intro hsave
        rw [hcommitted]
        cases event with
        | save result => exact absurd rfl (hsave result)
        | _ => simp [ManagerAction.saveResult]
      generalize hseen : w.manager.shared = seen at hmove
      cases hmove with
      | request phase hsave hwas hpending =>
        exact hquiet (updated_of_pending hwas) (updated_of_pending hpending) hseen (hunsaved hsave)
      | respond exchange refreshed hwas =>
        exact hquiet (by rw [hwas]; rfl) rfl hseen (hunsaved (by simp))
      | superseded hsave hwas =>
        exact hquiet (updated_of_pending hwas) (updated_conclude _ _) hseen (hunsaved hsave)
      | fail error hsave hwas =>
        exact hquiet (updated_of_pending hwas) (updated_conclude _ _) hseen (hunsaved hsave)
      | clear now outcome hwas =>
        exact hquiet (by rw [hwas]; rfl) rfl hseen (hunsaved (by simp))
      | publish now outcome hwas =>
        exact hquiet (by rw [hwas]; rfl) rfl hseen (hunsaved (by simp))
      | acquire exchange refreshed now updated hwas hfree hupdated =>
        obtain ⟨hcredential, -, hwriter⟩ := shared_eq hseen
        have hsame : w.committed = false := by
          rw [hunsaved (by simp), hv.committed_eq_false hfree]
        refine ⟨fun i updated' hi => ?_, fun _ => ?_, fun htrue => ?_⟩
        · rcases (saving_set_iff htask htasks).mp hi with ⟨rfl, -⟩ | ⟨-, hold⟩
          · exact hwriter
          · exact absurd hold (hv.not_saving hfree)
        · have hholds := hv.stored (hv.committed_eq_false hfree)
          simpa only [Vault.Holds, hstored, hcredential] using hholds
        · rw [hsame] at htrue
          cases htrue
      | unsaved exchange error updated hwas =>
        obtain ⟨hcredential, -, hwriter⟩ := shared_eq hseen
        have hbefore : v.committed = false := hresult false rfl
        have hsaving : v.manager.writer = some index :=
          hv.writer_of_saving index updated ⟨task, htask, by rw [hwas]; rfl⟩
        refine ⟨fun i updated' hi => ?_, fun _ => ?_, fun htrue => ?_⟩
        · rcases (saving_set_iff htask htasks).mp hi with ⟨-, hphase⟩ | ⟨hne, hold⟩
          · rw [updated_conclude] at hphase
            cases hphase
          · have hother := hv.writer_of_saving i updated' hold
            rw [hsaving] at hother
            exact absurd (Option.some.inj hother).symm hne
        · have hholds := hv.stored hbefore
          simpa only [Vault.Holds, hstored, hcredential] using hholds
        · simp [hcommitted, hbefore] at htrue
      | saved exchange updated hwas =>
        obtain ⟨hcredential, -, hwriter⟩ := shared_eq hseen
        have hsaving : v.manager.writer = some index :=
          hv.writer_of_saving index updated ⟨task, htask, by rw [hwas]; rfl⟩
        -- The transaction that committed is the one of this task.
        obtain ⟨j, updated', ⟨found, hfound, hphase⟩, hholds⟩ := hv.ahead (hresult true rfl)
        have hj := hv.writer_of_saving j updated' ⟨found, hfound, hphase⟩
        obtain rfl : index = j := Option.some.inj (hsaving.symm.trans hj)
        rw [htask] at hfound
        cases hfound
        rw [hwas] at hphase
        obtain rfl : updated = updated' := by simpa [TaskPhase.updated] using hphase
        refine ⟨fun i updated' hi => ?_, fun _ => ?_, fun htrue => ?_⟩
        · rcases (saving_set_iff htask htasks).mp hi with ⟨-, hphase⟩ | ⟨hne, hold⟩
          · rw [updated_conclude] at hphase
            cases hphase
          · have hother := hv.writer_of_saving i updated' hold
            rw [hsaving] at hother
            exact absurd (Option.some.inj hother).symm hne
        · simpa only [Vault.Holds, hstored, hcredential] using hholds
        · simp [hcommitted, ManagerAction.saveResult] at htrue

theorem Vault.Consistent.run {as : List VaultAction} (hv : v.Consistent)
    (h : VaultRun jwt v as w) : w.Consistent :=
  h.invariant (fun _ _ _ hv hstep => hv.step hstep) hv

theorem consistent_loaded (h : credentialFromRow row = .ok credential) :
    (Vault.loaded credential row).Consistent := by
  refine ⟨?_, fun _ => ⟨row, rfl, h⟩, ?_⟩
  · rintro i updated ⟨task, htask, -⟩
    simp [Vault.loaded, ManagerState.init] at htask
  · rintro ⟨⟩

/-! ### Generations -/

/-- The outcome of a task, from the moment the refresh has ended. -/
def RefreshTask.Concluded (task : RefreshTask) (outcome : RefreshOutcome) : Prop :=
  task.phase.outcome = some outcome ∨ task.published = some outcome

/-- The flight is that of its generation, and a task that succeeds moves beyond the generation it
was started for. -/
structure ManagerState.Forward (s : ManagerState) : Prop where
  flight : ∀ flight, s.flight = some flight →
    ∃ task, s.tasks[flight.outcome]? = some task ∧ task.expectedGeneration = flight.generation
  expected_le : ∀ (i : Nat) (task : RefreshTask), s.tasks[i]? = some task →
    task.expectedGeneration ≤ s.generation
  outcome_gt : ∀ (i : Nat) (task : RefreshTask) (snapshot : CredentialSnapshot),
    s.tasks[i]? = some task → task.Concluded (.ok snapshot) →
      task.expectedGeneration < snapshot.generation

theorem not_concluded_of_fresh {generation : Nat} {phase : TaskPhase} {outcome : RefreshOutcome}
    (hphase : phase.outcome = none) :
    ¬ RefreshTask.Concluded ⟨generation, phase, none⟩ outcome := by
  rintro (h | h)
  · simp [hphase] at h
  · simp at h

theorem outcome_of_pending {phase : TaskPhase} (h : phase.pending = true) : phase.outcome = none := by
  cases phase <;> first | rfl | cases h

theorem ne_finished_of_pending {phase : TaskPhase} (h : phase.pending = true) :
    phase ≠ .finished := by
  rintro rfl
  cases h

section

variable {task task' : RefreshTask} {event : TaskEvent}

theorem TaskMove.expectedGeneration_eq {seen : Credential × Nat × Option Nat}
    (h : TaskMove jwt s index task event task' seen) :
    task'.expectedGeneration = task.expectedGeneration := by
  cases h <;> rfl

/-- The generation stays, or moves on with the save of a task. -/
theorem TaskMove.generation (h : TaskMove jwt s index task event task' t.shared) :
    (event ≠ .save (.ok ()) ∧ t.generation = s.generation ∧ t.credential = s.credential) ∨
      (event = .save (.ok ()) ∧ t.generation = s.generation + 1 ∧ t.writer = none ∧
        ∃ exchange, task.phase = .saving exchange t.credential) := by
  generalize hseen : t.shared = seen at h
  obtain ⟨hcredential, hgeneration, hwriter⟩ := shared_eq hseen
  cases h with
  | saved exchange updated hwas =>
    exact .inr ⟨rfl, hgeneration, hwriter, exchange, by rw [hwas, hcredential]⟩
  | request phase hsave => exact .inl ⟨hsave _, hgeneration, hcredential⟩
  | superseded hsave => exact .inl ⟨hsave _, hgeneration, hcredential⟩
  | fail error hsave => exact .inl ⟨hsave _, hgeneration, hcredential⟩
  | _ => exact .inl ⟨by simp, hgeneration, hcredential⟩

theorem TaskMove.not_save {seen : Credential × Nat × Option Nat}
    (h : TaskMove jwt s index task event task' seen) (hidle : task.phase.updated = none)
    (result : Except StoreError Unit) : event ≠ .save result := by
  cases h with
  | request phase hsave => exact hsave result
  | superseded hsave => exact hsave result
  | fail error hsave => exact hsave result
  | unsaved exchange error updated hwas => simp [hwas, TaskPhase.updated] at hidle
  | saved exchange updated hwas => simp [hwas, TaskPhase.updated] at hidle
  | _ => simp

/-- What a task that succeeds hands out: the state it found, the one it saved, or what it had. -/
theorem TaskMove.concluded_ok (h : TaskMove jwt s index task event task' t.shared)
    {snapshot : CredentialSnapshot} (hconcluded : task'.Concluded (.ok snapshot)) :
    task.Concluded (.ok snapshot) ∨
      (s.writer = none ∧ snapshot = s.snapshot ∧ s.generation ≠ task.expectedGeneration) ∨
      (t.writer = none ∧ snapshot = t.snapshot ∧ t.generation = s.generation + 1) := by
  have hconclude : ∀ outcome, (task.conclude outcome).Concluded (.ok snapshot) →
      task.Concluded (.ok snapshot) ∨ outcome = .ok snapshot := by
    rintro outcome (hnew | hold)
    · rw [outcome_conclude] at hnew
      exact .inr (Option.some.inj hnew)
    · exact .inl (.inr hold)
  generalize hseen : t.shared = seen at h
  obtain ⟨hcredential, hgeneration, hwriter⟩ := shared_eq hseen
  cases h with
  | request phase hsave hwas hpending =>
    rcases hconcluded with hnew | hold
    · rw [outcome_of_pending hpending] at hnew
      cases hnew
    · exact .inl (.inr hold)
  | respond exchange refreshed hwas =>
    rcases hconcluded with hnew | hold
    · cases hnew
    · exact .inl (.inr hold)
  | acquire exchange refreshed now updated =>
    rcases hconcluded with hnew | hold
    · cases hnew
    · exact .inl (.inr hold)
  | superseded hsave hwas hfree hstale =>
    rcases hconclude _ hconcluded with hold | heq
    · exact .inl hold
    · cases heq
      exact .inr (.inl ⟨hfree, rfl, hstale⟩)
  | fail error =>
    rcases hconclude _ hconcluded with hold | heq
    · exact .inl hold
    · cases heq
  | unsaved exchange error =>
    rcases hconclude _ hconcluded with hold | heq
    · exact .inl hold
    · cases heq
  | saved exchange updated hwas =>
    rcases hconclude _ hconcluded with hold | heq
    · exact .inl hold
    · cases heq
      refine .inr (.inr ⟨hwriter, ?_, hgeneration⟩)
      rw [ManagerState.snapshot, hcredential, hgeneration]
  | clear now outcome hwas =>
    rcases hconcluded with hnew | hold
    · exact .inl (.inl (by rw [hwas]; exact hnew))
    · exact .inl (.inr hold)
  | publish now outcome hwas =>
    rcases hconcluded with hnew | hold
    · cases hnew
    · cases hold
      exact .inl (.inl (by rw [hwas]; rfl))

end

theorem ManagerState.Forward.step (hs : s.Forward) (h : managerStep jwt s action = some t) :
    t.Forward ∧ s.generation ≤ t.generation := by
  cases managerMove_of_step h with
  | frame hsave hshared hflight htasks =>
    obtain ⟨-, hgeneration, -⟩ := shared_eq_shared hshared
    refine ⟨⟨?_, ?_, ?_⟩, hgeneration.ge⟩
    · rw [hflight, htasks]
      exact hs.flight
    · rw [htasks, hgeneration]
      exact hs.expected_le
    · rw [htasks]
      exact hs.outcome_gt
  | spawn hsave hshared hflight htasks =>
    obtain ⟨-, hgeneration, -⟩ := shared_eq_shared hshared
    refine ⟨⟨?_, ?_, ?_⟩, hgeneration.ge⟩
    · intro flight hslot
      rw [hflight] at hslot
      cases hslot
      exact ⟨⟨s.generation, .reading, none⟩, by simp [htasks], rfl⟩
    · rw [htasks, hgeneration]
      intro i task hi
      rcases getElem?_append_singleton_cases hi with hi | ⟨-, rfl⟩
      · exact hs.expected_le i task hi
      · exact le_rfl
    · rw [htasks]
      intro i task snapshot hi hconcluded
      rcases getElem?_append_singleton_cases hi with hi | ⟨-, rfl⟩
      · exact hs.outcome_gt i task snapshot hi hconcluded
      · exact absurd hconcluded (not_concluded_of_fresh rfl)
  | task index event task task' htask hmove hflight htasks =>
    have hexpected := hmove.expectedGeneration_eq
    have hle : s.generation ≤ t.generation := by
      rcases hmove.generation with ⟨-, heq, -⟩ | ⟨-, heq, -⟩
      · exact heq.ge
      · omega
    refine ⟨⟨?_, ?_, ?_⟩, hle⟩
    · intro flight hslot
      rcases hflight with hsame | hnone
      · obtain ⟨found, hfound, hgeneration⟩ := hs.flight flight (hsame ▸ hslot)
        rcases eq_or_ne index flight.outcome with rfl | hne
        · rw [htask] at hfound
          cases hfound
          have hlt : flight.outcome < s.tasks.length := (List.getElem?_eq_some_iff.mp htask).1
          exact ⟨task', by rw [htasks, List.getElem?_set_self hlt], hexpected.trans hgeneration⟩
        · exact ⟨found, by rw [htasks, List.getElem?_set_ne hne, hfound], hgeneration⟩
      · rw [hnone] at hslot
        cases hslot
    · rw [htasks]
      intro i found hi
      rcases getElem?_set_cases hi with ⟨rfl, rfl⟩ | ⟨-, hi⟩
      · rw [hexpected]
        exact (hs.expected_le i task htask).trans hle
      · exact (hs.expected_le i found hi).trans hle
    · rw [htasks]
      intro i found snapshot hi hconcluded
      rcases getElem?_set_cases hi with ⟨rfl, rfl⟩ | ⟨-, hi⟩
      · have hcurrent := hs.expected_le i task htask
        rw [hexpected]
        rcases hmove.concluded_ok hconcluded with hold | ⟨-, rfl, hne⟩ | ⟨-, rfl, hnext⟩
        · exact hs.outcome_gt i task snapshot htask hold
        · exact lt_of_le_of_ne hcurrent (Ne.symm hne)
        · simp only [ManagerState.snapshot]
          omega
      · exact hs.outcome_gt i found snapshot hi hconcluded

/-- Where a caller may be that refreshes after a 401 of `failedGeneration`. -/
def CallerPhase.Recovers (s : ManagerState) (failedGeneration : Nat) : CallerPhase → Prop
  | .checking | .snapshotting => False
  | .locking expectedGeneration reason | .locked expectedGeneration reason =>
    expectedGeneration = failedGeneration ∧ reason = .unauthorized
  | .waiting index => ∃ task, s.tasks[index]? = some task ∧
      task.expectedGeneration = failedGeneration
  | .returned result => ∀ snapshot, result = .ok snapshot → failedGeneration < snapshot.generation
  | .gone => True

/-- The caller `index` recovers from a 401 of `failedGeneration`. -/
structure ManagerState.Recovering (s : ManagerState) (index failedGeneration : Nat) : Prop where
  le : failedGeneration ≤ s.generation
  lt_length : index < s.callers.length
  phase : ∀ phase, s.callers[index]? = some phase → phase.Recovers s failedGeneration

theorem length_callers_le (h : managerStep jwt s action = some t) :
    s.callers.length ≤ t.callers.length := by
  cases action with
  | credentials =>
    cases h
    simp
  | refreshAfterUnauthorized =>
    cases h
    simp
  | caller index now =>
    obtain ⟨phase, -, h⟩ := Option.bind_eq_some_iff.mp h
    cases callerStep_of_pollCaller h with
    | move phase' _ _ _ _ hcallers => simp [hcallers]
    | spawn reason _ _ _ _ hcallers => simp [hcallers]
  | cancel index =>
    cases h
    simp [ManagerState.setCaller, ManagerState.unlock]
  | task index event =>
    obtain ⟨task, -, h⟩ := Option.bind_eq_some_iff.mp h
    obtain ⟨task', -, -, hcallers, -⟩ := taskMove_of_pollTask h
    rw [hcallers]

/-- A task stays the task of its generation. -/
theorem expectedGeneration_of_step (h : managerStep jwt s action = some t) {task : RefreshTask}
    (htask : s.tasks[index]? = some task) :
    ∃ task', t.tasks[index]? = some task' ∧
      task'.expectedGeneration = task.expectedGeneration := by
  cases managerMove_of_step h with
  | frame hsave hshared hflight htasks => exact ⟨task, by rw [htasks, htask], rfl⟩
  | spawn hsave hshared hflight htasks =>
    exact ⟨task, by rw [htasks]; exact getElem?_append_of_some _ htask, rfl⟩
  | task moved event old task' hold hmove hflight htasks =>
    rcases eq_or_ne moved index with rfl | hne
    · rw [htask] at hold
      cases hold
      have hlt : moved < s.tasks.length := (List.getElem?_eq_some_iff.mp htask).1
      exact ⟨task', by rw [htasks, List.getElem?_set_self hlt], hmove.expectedGeneration_eq⟩
    · exact ⟨task, by rw [htasks, List.getElem?_set_ne hne, htask], rfl⟩

theorem ManagerState.Recovering.step {failedGeneration : Nat} (hs : s.Forward)
    (hr : s.Recovering index failedGeneration) (h : managerStep jwt s action = some t) :
    t.Recovering index failedGeneration := by
  refine ⟨hr.le.trans (hs.step h).2, hr.lt_length.trans_le (length_callers_le h), ?_⟩
  have hkeep : ∀ phase : CallerPhase, phase.Recovers s failedGeneration →
      phase.Recovers t failedGeneration := by
    intro phase hphase
    cases phase with
    | waiting i =>
      obtain ⟨task, htask, heq⟩ := hphase
      obtain ⟨task', htask', hsame⟩ := expectedGeneration_of_step h htask
      exact ⟨task', htask', hsame.trans heq⟩
    | _ => exact hphase
  intro phase' hcaller
  rcases caller_of_step h hcaller with hold | ⟨phase, hold, hmove | hspawn⟩ | ⟨hindex, -⟩
  · exact hkeep phase' (hr.phase phase' hold)
  · have hwas := hr.phase phase hold
    cases hmove with
    | gone => trivial
    | refresh => exact hwas.elim
    | fresh => exact hwas.elim
    | snapshot => exact hwas.elim
    | lock expectedGeneration reason => exact hwas
    | current expectedGeneration reason hfree hreason =>
      obtain ⟨rfl, rfl⟩ := hwas
      rintro snapshot ⟨⟩
      -- The generation is another one, and it only moves forward.
      exact lt_of_le_of_ne hr.le (hreason.resolve_right (by simp)).symm
    | join flight reason hflight =>
      obtain ⟨rfl, rfl⟩ := hwas
      obtain ⟨task, htask, heq⟩ := hs.flight flight hflight
      obtain ⟨task', htask', hsame⟩ := expectedGeneration_of_step h htask
      exact ⟨task', htask', hsame.trans heq⟩
    | finish i task outcome htask hpublished =>
      obtain ⟨found, hfound, rfl⟩ := hwas
      rw [htask] at hfound
      cases hfound
      intro snapshot hresult
      cases outcome with
      | error error => cases hresult
      | ok snapshot' =>
        cases hresult
        exact hs.outcome_gt i task snapshot htask (.inr hpublished)
  · obtain ⟨reason, rfl, rfl, htasks⟩ := hspawn
    obtain ⟨rfl, rfl⟩ := hr.phase _ hold
    exact ⟨⟨s.generation, .reading, none⟩, by simp [htasks], rfl⟩
  · exact absurd hindex hr.lt_length.ne

end

/-! ### What a run has handed out -/

section

variable (jwt : JwtDecoder) (start : Vault)

/-- A snapshot was the stored credential when the lock was free. -/
def WasStored (as : List VaultAction) (snapshot : CredentialSnapshot) : Prop :=
  ∃ pre post v credential, as = pre ++ post ∧ VaultRun jwt start pre v ∧
    v.manager.writer = none ∧ v.Holds credential ∧
    snapshot = ⟨credential.accessToken, credential.accountId, v.manager.generation⟩

/-- Some caller was handed out a snapshot of the generation. -/
def WasSupplied (as : List VaultAction) (generation : Nat) : Prop :=
  ∃ (pre post : List VaultAction) (v : Vault) (index : Nat) (snapshot : CredentialSnapshot),
    as = pre ++ post ∧ VaultRun jwt start pre v ∧
    v.manager.callers[index]? = some (.returned (.ok snapshot)) ∧ snapshot.generation = generation

/-- What tasks and callers hand out. -/
structure HandedOut (as : List VaultAction) (v : Vault) : Prop where
  tasks : ∀ (i : Nat) (task : RefreshTask) (snapshot : CredentialSnapshot),
    v.manager.tasks[i]? = some task → task.Concluded (.ok snapshot) → WasStored jwt start as snapshot
  callers : ∀ (i : Nat) (snapshot : CredentialSnapshot),
    v.manager.callers[i]? = some (.returned (.ok snapshot)) → WasStored jwt start as snapshot

end

section

variable {jwt : JwtDecoder} {start v w : Vault} {as : List VaultAction} {a : VaultAction}
  {snapshot : CredentialSnapshot}

theorem WasStored.append (h : WasStored jwt start as snapshot) (bs : List VaultAction) :
    WasStored jwt start (as ++ bs) snapshot := by
  obtain ⟨pre, post, v, credential, rfl, hrun, hrest⟩ := h
  exact ⟨pre, post ++ bs, v, credential, List.append_assoc _ _ _, hrun, hrest⟩

/-- The state of a free lock is one stored credential. -/
theorem Vault.Consistent.wasStored (hv : v.Consistent) (h : VaultRun jwt start as v)
    (hfree : v.manager.writer = none) : WasStored jwt start as v.manager.snapshot :=
  ⟨as, [], v, v.manager.credential, (List.append_nil _).symm, h, hfree,
    hv.stored (hv.committed_eq_false hfree), rfl⟩

theorem HandedOut.step (hstart : start.Consistent) (hrun : VaultRun jwt start as v)
    (hv : HandedOut jwt start as v) (h : vaultStep jwt v a = some w) :
    HandedOut jwt start (as ++ [a]) w := by
  have hconsistent := hstart.run hrun
  cases a with
  | commit index =>
    obtain ⟨_, _, _, -, -, -, hmanager, -, -⟩ := vaultStep_commit h
    constructor
    · rw [hmanager]
      exact fun i task snapshot htask hconcluded => (hv.tasks i task snapshot htask hconcluded).append _
    · rw [hmanager]
      exact fun i snapshot hcaller => (hv.callers i snapshot hcaller).append _
  | manager action =>
    have hrun' : VaultRun jwt start (as ++ [.manager action]) w := hrun.append (.single h)
    have hconsistent' := hstart.run hrun'
    obtain ⟨hmanager, -, -, -⟩ := vaultStep_manager h
    constructor
    · intro i task snapshot htask hconcluded
      cases managerMove_of_step hmanager with
      | frame hsave hshared hflight htasks =>
        rw [htasks] at htask
        exact (hv.tasks i task snapshot htask hconcluded).append _
      | spawn hsave hshared hflight htasks =>
        rw [htasks] at htask
        rcases getElem?_append_singleton_cases htask with hold | ⟨-, rfl⟩
        · exact (hv.tasks i task snapshot hold hconcluded).append _
        · exact absurd hconcluded (not_concluded_of_fresh rfl)
      | task index event old task' hold hmove hflight htasks =>
        rw [htasks] at htask
        rcases getElem?_set_cases htask with ⟨rfl, rfl⟩ | ⟨-, hother⟩
        · rcases hmove.concluded_ok hconcluded with hwas | ⟨hfree, rfl, -⟩ | ⟨hfree, rfl, -⟩
          · exact (hv.tasks i old snapshot hold hwas).append _
          · exact (hconsistent.wasStored hrun hfree).append _
          · exact hconsistent'.wasStored hrun' hfree
        · exact (hv.tasks i task snapshot hother hconcluded).append _
    · intro i snapshot hcaller
      rcases caller_of_step hmanager hcaller with hold | ⟨phase, -, hmove | hspawn⟩ | ⟨-, hnew⟩
      · exact (hv.callers i snapshot hold).append _
      · generalize hphase : CallerPhase.returned (.ok snapshot) = phase' at hmove
        cases hmove with
        | snapshot hfree =>
          cases hphase
          exact (hconsistent.wasStored hrun hfree).append _
        | current _ _ hfree =>
          cases hphase
          exact (hconsistent.wasStored hrun hfree).append _
        | finish j task outcome htask hpublished =>
          cases outcome with
          | error error => cases hphase
          | ok snapshot' =>
            cases hphase
            exact (hv.tasks j task snapshot htask (.inr hpublished)).append _
        | _ => cases hphase
      · obtain ⟨_, -, hphase, -⟩ := hspawn
        cases hphase
      · rcases hnew with hnew | ⟨_, -, hnew⟩ <;> cases hnew

/-! ### What a run has written -/

/-- The transaction of a task and the return of its save. -/
def VaultAction.writes (index : Nat) (a : VaultAction) : Prop :=
  a = .commit index ∨ a = .manager (.task index (.save (.ok ())))

/-- The OAuth endpoint answered a task. -/
def VaultAction.answers (index : Nat) (refreshed : RefreshResponse) (a : VaultAction) : Prop :=
  a = .manager (.task index (.body (some refreshed)))

/-- A task has neither committed a transaction nor returned from one. -/
def Unwritten (index : Nat) (as : List VaultAction) : Prop := ∀ a ∈ as, ¬ a.writes index

/-- What the labels of a run say about a task. -/
structure TaskRecord (jwt : JwtDecoder) (as : List VaultAction) (v : Vault) (index : Nat)
    (task : RefreshTask) : Prop where
  published : task.published = none ∨ task.phase = .finished
  pending : task.phase.pending = true → Unwritten index as
  answered : ∀ exchange refreshed, task.phase = .acquiring exchange refreshed →
    ∃ a ∈ as, a.answers index refreshed
  uncommitted : task.phase.updated ≠ none → v.committed = false → Unwritten index as
  saving : ∀ updated, task.phase.updated = some updated → ∃ refreshed now,
    (∃ a ∈ as, a.answers index refreshed) ∧
      refreshedCredential jwt v.manager.credential refreshed now = .ok updated
  failed : ∀ error, task.Concluded (.error error) → Unwritten index as

/-- The labels of a run and its tasks. -/
structure Records (jwt : JwtDecoder) (as : List VaultAction) (v : Vault) : Prop where
  born : ∀ index, v.manager.tasks.length ≤ index → Unwritten index as
  task : ∀ (index : Nat) (task : RefreshTask), v.manager.tasks[index]? = some task →
    TaskRecord jwt as v index task

theorem Unwritten.append {index : Nat} (h : Unwritten index as) (ha : ¬ a.writes index) :
    Unwritten index (as ++ [a]) := by
  intro b hb
  rcases List.mem_append.mp hb with hb | hb
  · exact h b hb
  · rw [List.mem_singleton.mp hb]
    exact ha

theorem answered_append {index : Nat} {refreshed : RefreshResponse}
    (h : ∃ a ∈ as, a.answers index refreshed) : ∃ b ∈ as ++ [a], b.answers index refreshed := by
  obtain ⟨b, hb, hanswers⟩ := h
  exact ⟨b, List.mem_append_left _ hb, hanswers⟩

theorem not_writes_manager {action : ManagerAction} {index : Nat} (h : action.saveResult = none) :
    ¬ (VaultAction.manager action).writes index := by
  rintro (hcommit | hsave)
  · cases hcommit
  · cases hsave
    cases h

theorem not_writes_task {event : TaskEvent} {index i : Nat}
    (h : ∀ result, event ≠ .save result) :
    ¬ (VaultAction.manager (.task i event)).writes index := by
  rintro (hcommit | hsave)
  · cases hcommit
  · cases hsave
    exact h _ rfl

theorem not_writes_other {event : TaskEvent} {index i : Nat} (h : index ≠ i) :
    ¬ (VaultAction.manager (.task i event)).writes index := by
  rintro (hcommit | hsave)
  · cases hcommit
  · cases hsave
    exact h rfl

/-- A step that neither writes for a task nor changes what it saves keeps its record. -/
theorem TaskRecord.frame {index : Nat} {task : RefreshTask}
    (hr : TaskRecord jwt as v index task) (ha : ¬ a.writes index)
    (hsame : task.phase.updated ≠ none →
      w.committed = v.committed ∧ w.manager.credential = v.manager.credential) :
    TaskRecord jwt (as ++ [a]) w index task where
  published := hr.published
  pending hpending := (hr.pending hpending).append ha
  answered exchange refreshed hphase := answered_append (hr.answered exchange refreshed hphase)
  uncommitted hupdated hcommitted :=
    (hr.uncommitted hupdated ((hsame hupdated).1.symm.trans hcommitted)).append ha
  saving updated hupdated := by
    obtain ⟨refreshed, now, hanswered, heq⟩ := hr.saving updated hupdated
    exact ⟨refreshed, now, answered_append hanswered,
      by rw [(hsame (by simp [hupdated])).2, heq]⟩
  failed error hfailed := (hr.failed error hfailed).append ha

/-- A task that concludes has its outcome, and an error only if it has written nothing. -/
theorem TaskRecord.conclude {index : Nat} {task : RefreshTask} {outcome : RefreshOutcome}
    (hr : TaskRecord jwt as v index task) (hphase : task.phase ≠ .finished)
    (herror : ∀ error, outcome = .error error → Unwritten index (as ++ [a])) :
    TaskRecord jwt (as ++ [a]) w index (task.conclude outcome) := by
  have hpublished : task.published = none := hr.published.resolve_right hphase
  have hshape : (task.conclude outcome).phase = .clearing outcome ∨
      (task.conclude outcome).phase = .publishing outcome := by
    simp only [RefreshTask.conclude, ManagerState.afterOutcome]
    split
    · split_ifs
      · exact .inl rfl
      · exact .inr rfl
    · exact .inr rfl
  refine ⟨.inl hpublished, fun hpending => ?_, fun exchange refreshed hacquiring => ?_, ?_, ?_,
    fun error hfailed => ?_⟩
  · rcases hshape with hshape | hshape <;> rw [hshape] at hpending <;> cases hpending
  · rcases hshape with hshape | hshape <;> rw [hshape] at hacquiring <;> cases hacquiring
  · intro hupdated
    exact absurd (updated_conclude task outcome) hupdated
  · intro updated hupdated
    rw [updated_conclude] at hupdated
    cases hupdated
  · rcases hfailed with hnew | hold
    · rw [outcome_conclude] at hnew
      exact herror error (Option.some.inj hnew)
    · rw [RefreshTask.conclude, hpublished] at hold
      cases hold

/-- The record of a task that moves. -/
theorem TaskRecord.move {index : Nat} {event : TaskEvent} {task task' : RefreshTask}
    (hr : TaskRecord jwt as v index task)
    (hmove : TaskMove jwt v.manager index task event task' w.manager.shared)
    (hresult : ∀ ok, (ManagerAction.task index event).saveResult = some ok → v.committed = ok) :
    TaskRecord jwt (as ++ [.manager (.task index event)]) w index task' := by
  generalize hseen : w.manager.shared = seen at hmove
  obtain ⟨hcredential, -, -⟩ := shared_eq hseen
  cases hmove with
  | request phase hsave hwas hpending hsilent =>
    have hunwritten : Unwritten index (as ++ [.manager (.task index event)]) :=
      (hr.pending hwas).append (not_writes_task hsave)
    exact ⟨.inl (hr.published.resolve_right (ne_finished_of_pending hwas)), fun _ => hunwritten, fun exchange refreshed hphase => absurd hphase (hsilent exchange refreshed),
      fun _ _ => hunwritten,
      fun updated hupdated => by simp [updated_of_pending hpending] at hupdated,
      fun _ _ => hunwritten⟩
  | respond exchange refreshed hwas =>
    have hunwritten : Unwritten index (as ++ [.manager (.task index (.body (some refreshed)))]) :=
      (hr.pending (by rw [hwas]; rfl)).append (not_writes_task (by simp))
    refine ⟨.inl (hr.published.resolve_right (by simp [hwas])), fun _ => hunwritten,
      fun exchange' refreshed' hphase => ?_, fun _ _ => hunwritten,
      fun updated hupdated => by simp [TaskPhase.updated] at hupdated, fun _ _ => hunwritten⟩
    cases hphase
    exact ⟨_, List.mem_append_right _ (List.mem_singleton_self _), rfl⟩
  | acquire exchange refreshed now updated hwas hfree hupdated =>
    have hunwritten : Unwritten index (as ++ [.manager (.task index (.poll now))]) :=
      (hr.pending (by rw [hwas]; rfl)).append (not_writes_task (by simp))
    refine ⟨.inl (hr.published.resolve_right (by simp [hwas])), fun _ => hunwritten,
      fun exchange' refreshed' hphase => by simp at hphase, fun _ _ => hunwritten,
      fun updated' hsaving => ?_, fun _ _ => hunwritten⟩
    obtain rfl : updated = updated' := by simpa [TaskPhase.updated] using hsaving
    exact ⟨refreshed, now, answered_append (hr.answered exchange refreshed hwas),
      by rw [hcredential, hupdated]⟩
  | superseded hsave hwas =>
    exact hr.conclude (ne_finished_of_pending hwas) (by simp)
  | fail error hsave hwas =>
    exact hr.conclude (ne_finished_of_pending hwas) fun _ _ => (hr.pending hwas).append (not_writes_task hsave)
  | unsaved exchange error updated hwas =>
    have hupdated : task.phase.updated ≠ none := by simp [hwas, TaskPhase.updated]
    refine hr.conclude (by simp [hwas]) fun _ _ => ?_
    refine (hr.uncommitted hupdated (hresult false rfl)).append ?_
    rintro (hcommit | hsave)
    · cases hcommit
    · cases hsave
  | saved exchange updated hwas => exact hr.conclude (by simp [hwas]) (by simp)
  | clear now outcome hwas =>
    refine ⟨.inl (hr.published.resolve_right (by simp [hwas])), by simp [TaskPhase.pending], by simp,
      by simp [TaskPhase.updated], by simp [TaskPhase.updated], fun error hfailed => ?_⟩
    refine (hr.failed error ?_).append (not_writes_task (by simp))
    rcases hfailed with hnew | hold
    · exact .inl (by rw [hwas]; exact hnew)
    · exact .inr hold
  | publish now outcome hwas =>
    refine ⟨.inr rfl, by simp [TaskPhase.pending], by simp, by simp [TaskPhase.updated],
      by simp [TaskPhase.updated], fun error hfailed => ?_⟩
    refine (hr.failed error ?_).append (not_writes_task (by simp))
    rcases hfailed with hnew | hold
    · cases hnew
    · exact .inl (by rw [hwas]; exact hold)

theorem Records.step (hstart : start.Consistent) (hrun : VaultRun jwt start as v)
    (hv : Records jwt as v) (h : vaultStep jwt v a = some w) : Records jwt (as ++ [a]) w := by
  have hconsistent := hstart.run hrun
  cases a with
  | commit index =>
    obtain ⟨exchange, updated, task, htask, hphase, hcommitted, hmanager, hafter, -⟩ :=
      vaultStep_commit h
    have hlt : index < v.manager.tasks.length := (List.getElem?_eq_some_iff.mp htask).1
    have hwriter : ∀ i task', v.manager.tasks[i]? = some task' → task'.phase.updated ≠ none →
        i = index := by
      intro i task' hi hupdated
      obtain ⟨updated', hupdated'⟩ := Option.ne_none_iff_exists'.mp hupdated
      have hi := hconsistent.writer_of_saving i updated' ⟨task', hi, hupdated'⟩
      have hindex := hconsistent.writer_of_saving index updated ⟨task, htask, by rw [hphase]; rfl⟩
      exact Option.some.inj (hi.symm.trans hindex)
    have hothers : ∀ i, i ≠ index → ¬ (VaultAction.commit index).writes i := by
      rintro i hne (heq | heq)
      · cases heq
        exact hne rfl
      · cases heq
    constructor
    · rw [hmanager]
      intro i hi
      exact (hv.born i hi).append (hothers i (by omega))
    · rw [hmanager]
      intro i task' hi
      have hr := hv.task i task' hi
      rcases eq_or_ne i index with rfl | hne
      · rw [htask] at hi
        cases hi
        have hsaving : task.phase.updated = some updated := by rw [hphase]; rfl
        refine ⟨hr.published, fun hpending => ?_, fun _ _ hacquiring => ?_, fun _ hfalse => ?_,
          fun updated' hupdated => ?_, fun error hfailed => ?_⟩
        · rw [hphase] at hpending
          cases hpending
        · rw [hphase] at hacquiring
          cases hacquiring
        · rw [hafter] at hfalse
          cases hfalse
        · obtain ⟨refreshed, now, hanswered, heq⟩ := hr.saving updated' hupdated
          exact ⟨refreshed, now, answered_append hanswered, by rw [hmanager, heq]⟩
        · rcases hfailed with hnew | hold
          · rw [hphase] at hnew
            cases hnew
          · have hnone := hr.published.resolve_right (by rw [hphase]; simp)
            rw [hnone] at hold
            cases hold
      · exact hr.frame (hothers i hne) fun hupdated => absurd (hwriter i task' hi hupdated) hne
  | manager action =>
    obtain ⟨hmanager, -, hresult, hcommitted⟩ := vaultStep_manager h
    cases managerMove_of_step hmanager with
    | frame hsave hshared hflight htasks =>
      obtain ⟨hcredential, -, -⟩ := shared_eq_shared hshared
      have hsame : w.committed = v.committed := by simp [hcommitted, hsave]
      constructor
      · rw [htasks]
        exact fun i hi => (hv.born i hi).append (not_writes_manager hsave)
      · rw [htasks]
        exact fun i task hi =>
          (hv.task i task hi).frame (not_writes_manager hsave) fun _ => ⟨hsame, hcredential⟩
    | spawn hsave hshared hflight htasks =>
      obtain ⟨hcredential, -, -⟩ := shared_eq_shared hshared
      have hsame : w.committed = v.committed := by simp [hcommitted, hsave]
      constructor
      · rw [htasks]
        intro i hi
        rw [List.length_append] at hi
        exact (hv.born i (by omega)).append (not_writes_manager hsave)
      · rw [htasks]
        intro i task hi
        rcases getElem?_append_singleton_cases hi with hi | ⟨rfl, rfl⟩
        · exact (hv.task i task hi).frame (not_writes_manager hsave) fun _ => ⟨hsame, hcredential⟩
        · have hunwritten := (hv.born v.manager.tasks.length le_rfl).append (not_writes_manager hsave)
          exact ⟨.inl rfl, fun _ => hunwritten, by simp, by simp [TaskPhase.updated],
            by simp [TaskPhase.updated], fun _ _ => hunwritten⟩
    | task index event task task' htask hmove hflight htasks =>
      have hlt : index < v.manager.tasks.length := (List.getElem?_eq_some_iff.mp htask).1
      have hr := hv.task index task htask
      constructor
      · rw [htasks, List.length_set]
        exact fun i hi => (hv.born i hi).append (not_writes_other (by omega))
      rw [htasks]
      intro i found hi
      rcases getElem?_set_cases hi with ⟨rfl, rfl⟩ | ⟨hne, hi⟩
      · exact hr.move hmove hresult
      · refine (hv.task i found hi).frame (not_writes_other hne) fun hupdated => ?_
        -- While another task saves, this one neither begins nor ends a save.
        obtain ⟨updated, hupdated⟩ := Option.ne_none_iff_exists'.mp hupdated
        have hwriter := hconsistent.writer_of_saving i updated ⟨found, hi, hupdated⟩
        have hidle : task.phase.updated = none := by
          by_contra hcontra
          obtain ⟨updated', hupdated'⟩ := Option.ne_none_iff_exists'.mp hcontra
          have hindex := hconsistent.writer_of_saving index updated' ⟨task, htask, hupdated'⟩
          exact hne (Option.some.inj (hwriter.symm.trans hindex))
        have hsave := hmove.not_save hidle
        rcases hmove.generation with ⟨-, -, hcredential⟩ | ⟨hsaved, -⟩
        · refine ⟨?_, hcredential⟩
          rw [hcommitted]
          cases event with
          | save result => exact absurd rfl (hsave result)
          | _ => simp [ManagerAction.saveResult]
        · exact absurd hsaved (hsave _)

/-- Whether the action commits a rotation. -/
def VaultAction.isCommit : VaultAction → Bool
  | .commit _ => true
  | _ => false

/-- The generation counts the committed rotations; one that is not published yet is missing. -/
def Counted (as : List VaultAction) (v : Vault) : Prop :=
  v.manager.generation + (if v.committed then 1 else 0) = as.countP (·.isCommit)

/-- What a step changes: a commit the table, the return of a save the memory, and it moves the
generation on by one. -/
theorem changes_of_step (h : vaultStep jwt v a = some w) :
    (w.stored = v.stored ∨ ∃ index, a = .commit index) ∧
    (((∀ index, a ≠ .manager (.task index (.save (.ok ())))) ∧
        w.manager.generation = v.manager.generation ∧
        w.manager.credential = v.manager.credential) ∨
      (w.manager.generation = v.manager.generation + 1 ∧
        ∃ index, a = .manager (.task index (.save (.ok ()))))) := by
  cases a with
  | commit index =>
    obtain ⟨_, _, _, -, -, -, hmanager, -, -⟩ := vaultStep_commit h
    exact ⟨.inr ⟨index, rfl⟩, .inl ⟨by simp, by rw [hmanager], by rw [hmanager]⟩⟩
  | manager action =>
    obtain ⟨hmanager, hstored, -, -⟩ := vaultStep_manager h
    refine ⟨.inl hstored, ?_⟩
    cases managerMove_of_step hmanager with
    | frame hsave hshared =>
      obtain ⟨hcredential, hgeneration, -⟩ := shared_eq_shared hshared
      refine .inl ⟨?_, hgeneration, hcredential⟩
      rintro index ⟨⟩
      cases hsave
    | spawn hsave hshared =>
      obtain ⟨hcredential, hgeneration, -⟩ := shared_eq_shared hshared
      refine .inl ⟨?_, hgeneration, hcredential⟩
      rintro index ⟨⟩
      cases hsave
    | task index event task task' htask hmove =>
      rcases hmove.generation with ⟨hevent, hsame⟩ | ⟨rfl, hgeneration, -⟩
      · exact .inl ⟨by simpa using hevent, hsame⟩
      · exact .inr ⟨hgeneration, index, rfl⟩

theorem ManagerAction.saveResult_eq_true {action : ManagerAction}
    (h : action.saveResult = some true) : ∃ index, action = .task index (.save (.ok ())) := by
  unfold ManagerAction.saveResult at h
  split at h <;> cases h
  exact ⟨_, rfl⟩

theorem Counted.step (hv : Counted as v) (h : vaultStep jwt v a = some w) :
    Counted (as ++ [a]) w := by
  unfold Counted at hv ⊢
  rw [List.countP_append, List.countP_singleton, ← hv]
  cases a with
  | commit index =>
    obtain ⟨_, _, _, -, -, hcommitted, hmanager, hafter, -⟩ := vaultStep_commit h
    simp [hcommitted, hmanager, hafter, VaultAction.isCommit]
  | manager action =>
    obtain ⟨-, -, hresult, hcommitted⟩ := vaultStep_manager h
    rcases (changes_of_step h).2 with ⟨hother, hgeneration, -⟩ | ⟨hgeneration, index, heq⟩
    · have hsame : w.committed = v.committed := by
        cases hsave : action.saveResult with
        | none => simp [hcommitted, hsave]
        | some ok =>
          cases ok with
          | false => simp [hcommitted, hsave, hresult false hsave]
          | true =>
            obtain ⟨index, rfl⟩ := ManagerAction.saveResult_eq_true hsave
            exact absurd rfl (hother index)
      simp [hgeneration, hsame, VaultAction.isCommit]
    · cases heq
      simp [hcommitted, hresult true rfl, hgeneration, ManagerAction.saveResult,
        VaultAction.isCommit]

/-! ### The laws -/

/-- What the OAuth endpoint omits keeps its value. -/
structure KeepsOmitted (jwt : JwtDecoder) (current : Credential) (refreshed : RefreshResponse)
    (updated : Credential) : Prop where
  accessToken : refreshed.accessToken = none → updated.accessToken = current.accessToken
  refreshToken : refreshed.refreshToken = none → updated.refreshToken = current.refreshToken
  accountId : refreshed.idToken.bind (accountIdFromIdToken jwt) = none →
    updated.accountId = current.accountId

theorem keepsOmitted_of_refreshedCredential {current updated : Credential}
    {refreshed : RefreshResponse} {now : OffsetDateTime}
    (h : refreshedCredential jwt current refreshed now = .ok updated) :
    KeepsOmitted jwt current refreshed updated := by
  simp only [refreshedCredential, bind_eq_ok] at h
  obtain ⟨accessToken, haccess, refreshToken, hrefresh, h⟩ := h
  split at h
  · cases h
  · cases h
    refine ⟨fun hnone => ?_, fun hnone => ?_, fun hnone => ?_⟩
    · rw [hnone] at haccess
      cases haccess
      rfl
    · rw [hnone] at hrefresh
      cases hrefresh
      rfl
    · simp [hnone]

/-- What holds of the state that a run reaches, and of the steps from it. -/
structure CredentialLaws (jwt : JwtDecoder) (start : Vault) (as : List VaultAction) (v : Vault) :
    Prop where
  /-- When the lock is free, memory and table agree. -/
  stored : v.manager.writer = none → v.Holds v.manager.credential
  /-- Every snapshot handed out was one stored credential with its generation. -/
  handedOut : ∀ (index : Nat) (snapshot : CredentialSnapshot),
    v.manager.callers[index]? = some (.returned (.ok snapshot)) → WasStored jwt start as snapshot
  /-- The generation counts the persisted rotations. -/
  counted : Counted as v
  /-- Only a commit changes the table, and only the return of its save the memory: it moves the
  generation on by one and keeps what the OAuth response of its task omits. -/
  changes : ∀ a w, vaultStep jwt v a = some w →
    (w.stored = v.stored ∨ ∃ index, a = .commit index) ∧
    ((w.manager.generation = v.manager.generation ∧
        w.manager.credential = v.manager.credential) ∨
      (w.manager.generation = v.manager.generation + 1 ∧
        ∃ index refreshed, a = .manager (.task index (.save (.ok ()))) ∧
          (∃ b ∈ as, b.answers index refreshed) ∧
          KeepsOmitted jwt v.manager.credential refreshed w.manager.credential))
  /-- A refresh that failed has changed neither. -/
  failed : ∀ (index : Nat) (task : RefreshTask) (error : CredentialError),
    v.manager.tasks[index]? = some task → task.Concluded (.error error) → Unwritten index as
  /-- A refresh after a 401 of credentials that were handed out moves beyond them. -/
  recovered : ∀ pre post u failedGeneration snapshot,
    as = pre ++ .manager (.refreshAfterUnauthorized failedGeneration) :: post →
    VaultRun jwt start pre u → WasSupplied jwt start pre failedGeneration →
    v.manager.callers[u.manager.callers.length]? = some (.returned (.ok snapshot)) →
    failedGeneration < snapshot.generation

/-- The manager moves forward with the process. -/
theorem forward_of_vaultStep (hv : v.manager.Forward) (h : vaultStep jwt v a = some w) :
    w.manager.Forward ∧ v.manager.generation ≤ w.manager.generation := by
  cases a with
  | commit index =>
    obtain ⟨_, _, _, -, -, -, hmanager, -, -⟩ := vaultStep_commit h
    rw [hmanager]
    exact ⟨hv, le_rfl⟩
  | manager action => exact hv.step (vaultStep_manager h).1

theorem forward_run (hv : v.manager.Forward) (h : VaultRun jwt v as w) :
    w.manager.Forward ∧ v.manager.generation ≤ w.manager.generation :=
  h.invariant (I := fun u => u.manager.Forward ∧ v.manager.generation ≤ u.manager.generation)
    (fun _ _ _ hu hstep => ⟨(forward_of_vaultStep hu.1 hstep).1,
      hu.2.trans (forward_of_vaultStep hu.1 hstep).2⟩) ⟨hv, le_rfl⟩

theorem recovering_run {index failedGeneration : Nat} (hv : v.manager.Forward)
    (hr : v.manager.Recovering index failedGeneration) (h : VaultRun jwt v as w) :
    w.manager.Recovering index failedGeneration := by
  refine (h.invariant (I := fun u => u.manager.Forward ∧ u.manager.Recovering index
    failedGeneration) (fun u a u' hu hstep => ?_) ⟨hv, hr⟩).2
  refine ⟨(forward_of_vaultStep hu.1 hstep).1, ?_⟩
  cases a with
  | commit i =>
    obtain ⟨_, _, _, -, -, -, hmanager, -, -⟩ := vaultStep_commit hstep
    rw [hmanager]
    exact hu.2
  | manager action => exact hu.2.step hu.1 (vaultStep_manager hstep).1

/-- A process that has just loaded its credentials has no tasks. -/
theorem forward_loaded {credential : Credential} {row : CredentialsRow} :
    (Vault.loaded credential row).manager.Forward := by
  refine ⟨?_, ?_, ?_⟩
  · simp [Vault.loaded, ManagerState.init]
  · intro i task htask
    simp [Vault.loaded, ManagerState.init] at htask
  · intro i task snapshot htask
    simp [Vault.loaded, ManagerState.init] at htask

/-- A generation that was handed out has been reached. -/
theorem WasStored.generation_le {pre post : List VaultAction} (hstart : start.manager.Forward)
    (h : WasStored jwt start pre snapshot) (hrun : VaultRun jwt start (pre ++ post) v) :
    snapshot.generation ≤ v.manager.generation := by
  obtain ⟨pre', post', u, credential, rfl, hu, -, -, rfl⟩ := h
  rw [List.append_assoc] at hrun
  obtain ⟨u', hu', hrest⟩ := run_append_iff.mp hrun
  obtain rfl := hu.eq_of_ofFun hu'
  exact (forward_run (forward_run hstart hu).1 hrest).2

end

section

variable {jwt : JwtDecoder} {v : Vault} {as : List VaultAction} {credential : Credential}
  {row : CredentialsRow}

theorem handedOut_run (h : credentialFromRow row = .ok credential)
    (hrun : VaultRun jwt (.loaded credential row) as v) :
    HandedOut jwt (.loaded credential row) as v := by
  refine hrun.history (P := HandedOut jwt (.loaded credential row)) ⟨?_, ?_⟩
    fun bs u b w hu hhanded hstep => hhanded.step (consistent_loaded h) hu hstep
  · intro i task snapshot htask
    simp [Vault.loaded, ManagerState.init] at htask
  · intro i snapshot hcaller
    simp [Vault.loaded, ManagerState.init] at hcaller

theorem records_run (h : credentialFromRow row = .ok credential)
    (hrun : VaultRun jwt (.loaded credential row) as v) : Records jwt as v := by
  refine hrun.history (P := Records jwt) ⟨?_, ?_⟩
    fun bs u b w hu hrecords hstep => hrecords.step (consistent_loaded h) hu hstep
  · intro i _ a ha
    cases ha
  · intro i task htask
    simp [Vault.loaded, ManagerState.init] at htask

end

/-- Two callers after a 401: the first refreshes and hands out the new generation, the second
finds it. -/
def sharedRotation : List VaultAction :=
  let now := secondsAfterEpoch 200
  [.manager .credentials, .manager (.caller 0 now), .manager (.caller 0 now),
    .manager (.refreshAfterUnauthorized 0), .manager (.caller 1 now), .manager (.caller 1 now),
    .manager (.task 0 (.poll now)), .manager (.task 0 (.status 200)),
    .manager (.task 0 (.body (some rotation))), .manager (.task 0 (.poll now)), .commit 0,
    .manager (.task 0 (.save (.ok ()))), .manager (.task 0 (.poll now)),
    .manager (.caller 1 now), .manager (.refreshAfterUnauthorized 0), .manager (.caller 2 now),
    .manager (.caller 2 now)]

/-- The process that has imported the seed. -/
def seededVault : Vault :=
  .loaded (.ofSeed lateSeed) ⟨"account", "access", "refresh", none, 100000000000⟩

/-- The state after a list of actions. -/
def vaultAfter (as : List VaultAction) : Vault :=
  (exec (vaultStep opaqueTokens) seededVault as).getD seededVault

end CodexApi
