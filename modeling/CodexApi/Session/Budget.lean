import CodexApi.Lib.Transition
import CodexApi.Session.Cache
import Mathlib.Algebra.Order.BigOperators.Group.List

/-!
# The budget of the session cache

The cache holds at most `maxIdleSessions` idle entries and `maxContextBytes` bytes, whatever
sequence of operations has led to it. Busy entries cannot be evicted, so the bound rests on what the
loop of `ready` leaves where it finds no idle entry: the entries that were busy before, whose bytes were
within the budget.

`Eviction` is a run of that loop. That there is one says that the loop terminates; each of its rounds
removes an idle entry that is oldest, and only while a limit is exceeded.
-/

namespace CodexApi

open Transition

namespace Entries

variable {entries entries' : Entries} {key : SessionKey} {e e' : SessionKey × Entry}

/-! ### The limits -/

/-- Both limits hold. -/
structure WithinLimits (entries : Entries) : Prop where
  /-- The idle entries are few enough. -/
  idle : entries.countP (!·.2.busy) ≤ maxIdleSessions
  /-- The bytes of all entries fit the budget. -/
  bytes : (entries.map (·.2.bytes)).sum ≤ maxContextBytes

/-- What is left of a cache within its limits is within them. -/
theorem WithinLimits.sublist (h : entries.WithinLimits) (hsub : entries'.Sublist entries) :
    entries'.WithinLimits where
  idle := (hsub.countP_le (p := fun e => !e.2.busy)).trans h.idle
  bytes := ((hsub.map _).sum_le_sum fun _ _ => Nat.zero_le _).trans h.bytes

theorem WithinLimits.perm (h : entries.WithinLimits) (hperm : entries'.Perm entries) :
    entries'.WithinLimits where
  idle := (hperm.countP_eq _).trans_le h.idle
  bytes := ((hperm.map _).sum_eq).trans_le h.bytes

/-! ### The loop -/

/-- A run of the eviction loop: it stops where both limits hold or every entry is busy, and a round
removes an oldest idle entry. -/
inductive Eviction : Entries → Entries → Prop
  | stop {entries : Entries} (h : entries.WithinLimits ∨ ∀ e ∈ entries, e.2.busy = true) :
      Eviction entries entries
  | round {entries entries' : Entries} {oldest : SessionKey × Entry}
      (exceeded : ¬ entries.WithinLimits) (mem : oldest ∈ entries) (idle : oldest.2.busy = false)
      (least : ∀ e ∈ entries, e.2.busy = false → oldest.2.lastUsed ≤ e.2.lastUsed)
      (rest : Eviction (entries.remove oldest.1) entries') : Eviction entries entries'

/-- Where no entry is found, all are busy. -/
theorem oldestIdle_eq_none (h : entries.oldestIdle = none) : ∀ e ∈ entries, e.2.busy = true := by
  induction entries with
  | nil => exact fun e hmem => absurd hmem List.not_mem_nil
  | cons head tail ih =>
    simp only [oldestIdle] at h
    split at h
    · next hnone =>
      split_ifs at h with hbusy
      exact List.forall_mem_cons.mpr ⟨hbusy, ih hnone⟩
    · split_ifs at h

/-- No idle entry is older than the one found. -/
theorem oldestIdle_least {oldest : SessionKey × Entry} (h : entries.oldestIdle = some oldest) :
    ∀ e ∈ entries, e.2.busy = false → oldest.2.lastUsed ≤ e.2.lastUsed := by
  induction entries generalizing oldest with
  | nil => cases h
  | cons head tail ih =>
    simp only [oldestIdle] at h
    split at h
    · next hnone =>
      split_ifs at h
      cases h
      refine List.forall_mem_cons.mpr ⟨fun _ => le_rfl, fun e hmem hidle => ?_⟩
      rw [oldestIdle_eq_none hnone e hmem] at hidle
      cases hidle
    · next other hother =>
      have hleast := ih hother
      split_ifs at h with hhead
      · cases h
        exact List.forall_mem_cons.mpr
          ⟨fun _ => le_rfl, fun e hmem hidle => hhead.2.trans (hleast e hmem hidle)⟩
      · cases h
        refine List.forall_mem_cons.mpr ⟨fun hidle => ?_, hleast⟩
        have holder : ¬ head.2.lastUsed ≤ oldest.2.lastUsed := fun hle => hhead (by simp [hidle, hle])
        omega

/-- **The loop terminates**: what `evict` computes is where a run of it stops. The induction is on
the number of entries. -/
theorem evict_eviction (entries : Entries) : Eviction entries entries.evict := by
  induction hlength : entries.length using Nat.strong_induction_on generalizing entries with
  | _ n ih =>
    subst hlength
    rw [evict_eq]
    unfold evictOldest
    by_cases hlimits : entries.countP (!·.2.busy) ≤ maxIdleSessions ∧
        (entries.map (·.2.bytes)).sum ≤ maxContextBytes
    · rw [if_pos hlimits]
      exact .stop (.inl ⟨hlimits.1, hlimits.2⟩)
    · rw [if_neg hlimits]
      cases holdest : entries.oldestIdle with
      | none => exact .stop (.inr (oldestIdle_eq_none holdest))
      | some oldest =>
        obtain ⟨hmem, hidle⟩ := oldestIdle_mem holdest
        exact .round (fun h => hlimits ⟨h.idle, h.bytes⟩) hmem hidle (oldestIdle_least holdest)
          (ih _ (length_remove_lt hmem) _ rfl)

/-- The loop only removes. -/
theorem Eviction.sublist (h : Eviction entries entries') : entries'.Sublist entries := by
  induction h with
  | stop _ => exact .refl _
  | round _ _ _ _ _ ih => exact ih.trans List.filter_sublist

/-- The loop stops where both limits hold or every entry is busy. -/
theorem Eviction.stops (h : Eviction entries entries') :
    entries'.WithinLimits ∨ ∀ e ∈ entries', e.2.busy = true := by
  induction h with
  | stop h => exact h
  | round _ _ _ _ _ ih => exact ih

/-- The loop does nothing once both limits hold. -/
theorem Eviction.eq_of_withinLimits (h : Eviction entries entries')
    (hlimits : entries.WithinLimits) : entries' = entries := by
  cases h with
  | stop _ => rfl
  | round exceeded _ _ _ _ => exact absurd hlimits exceeded

/-- **The order of the evictions.** What is removed was idle, and at least as old as every idle
entry that is left. -/
theorem Eviction.oldest_first (h : Eviction entries entries') (hdistinct : entries.Distinct)
    (hmem : e ∈ entries) (hgone : e ∉ entries') :
    e.2.busy = false ∧ ∀ e' ∈ entries', e'.2.busy = false → e.2.lastUsed ≤ e'.2.lastUsed := by
  induction h with
  | stop _ => exact absurd hmem hgone
  | @round entries entries' oldest _ mem idle least rest ih =>
    by_cases hkey : e.1 = oldest.1
    · -- it is the entry that this round removes
      have hself : (oldest.1, e.2) ∈ entries := hkey ▸ hmem
      have hsame : e.2 = oldest.2 := hdistinct.unique hself mem
      rw [hsame]
      refine ⟨idle, fun e' hleft hidle => least e' ?_ hidle⟩
      exact (rest.sublist.trans List.filter_sublist).subset hleft
    · exact ih (hdistinct.remove _) (mem_remove.mpr ⟨hmem, hkey⟩) hgone

/-- Busy entries are never evicted. -/
theorem Eviction.mem_of_busy (h : Eviction entries entries') (hdistinct : entries.Distinct)
    (hmem : e ∈ entries) (hbusy : e.2.busy = true) : e ∈ entries' := by
  by_contra hgone
  have hidle := (h.oldest_first hdistinct hmem hgone).1
  rw [hbusy] at hidle
  cases hidle

/-- Among the entries that are busy after an update that releases one, none is new. -/
theorem busy_update_sublist {f : Entry → Entry} (hf : ∀ entry, (f entry).busy = true →
    f entry = entry) : ((entries.update key f).filter (·.2.busy)).Sublist entries := by
  induction entries with
  | nil => exact .slnil
  | cons head tail ih =>
    rw [update, List.map_cons, List.filter_cons]
    split_ifs with hkey hbusy
    · rw [hf head.2 hbusy]
      exact ih.cons_cons head
    · exact ih.cons head
    · exact ih.cons_cons head
    · exact ih.cons head

/-- A turn on an idle entry keeps a cache within its limits. -/
theorem withinLimits_busy (h : entries.WithinLimits) (key : SessionKey) :
    (entries.update key fun entry => { entry with busy := true }).WithinLimits := by
  have hidle : (entries.update key fun entry => { entry with busy := true }).countP (!·.2.busy) ≤
      entries.countP (!·.2.busy) := by
    rw [update, List.countP_map]
    refine List.countP_mono_left fun e _ hidle => ?_
    by_cases hkey : e.1 = key
    · simp [hkey] at hidle
    · simpa [hkey] using hidle
  have hbytes : (entries.update key fun entry => { entry with busy := true }).map (·.2.bytes) =
      entries.map (·.2.bytes) := by
    rw [update, List.map_map]
    refine List.map_congr_left fun e _ => ?_
    by_cases hkey : e.1 = key
    · simp [hkey]
    · simp [hkey]
  exact ⟨hidle.trans h.idle, hbytes ▸ h.bytes⟩

end Entries

/-! ### The operations -/

namespace Cache

/-- What `stream` does to the cache. -/
def stream (cache : Cache) (key : Option SessionKey) (now : Nat) : Cache :=
  match key with
  | none => cache.addActor none now
  | some key =>
    match cache.entries.get key with
    | none => cache.addActor (some key) now
    | some entry => if entry.busy then cache else cache.markBusy key

/-- The entries that `ready` leaves before any eviction. -/
def release (cache : Cache) (key : SessionKey) (id bytes now : Nat) : Entries :=
  if maxContextBytes < bytes ∧ cache.owns key id then cache.entries.remove key
  else cache.entries.update key fun entry =>
    if entry.id = id then { entry with busy := false, lastUsed := now, bytes } else entry

/-- A cache within its budget. -/
structure Kept (cache : Cache) : Prop where
  /-- No key has two entries. -/
  distinct : cache.entries.Distinct
  /-- Both limits hold. -/
  limits : cache.entries.WithinLimits

variable {cache : Cache} {key : SessionKey} {id bytes now : Nat}

/-- In a cache within its budget, `ready` is a run of the eviction loop on the released entries,
also where an oversized snapshot makes it return early. -/
theorem ready_eviction (h : cache.Kept) (key : SessionKey) (id bytes now : Nat) :
    Entries.Eviction (cache.release key id bytes now) (cache.ready key id bytes now).entries := by
  unfold release ready
  split_ifs
  · exact .stop (.inl (h.limits.sublist List.filter_sublist))
  · exact Entries.evict_eviction _

theorem distinct_release (h : cache.entries.Distinct) :
    (cache.release key id bytes now).Distinct := by
  unfold release
  split_ifs
  · exact h.remove _
  · exact h.update _ _

/-- The entries that are busy after a release were there before. -/
theorem busy_release_sublist :
    ((cache.release key id bytes now).filter (·.2.busy)).Sublist cache.entries := by
  unfold release
  split_ifs
  · exact List.filter_sublist.trans List.filter_sublist
  · refine Entries.busy_update_sublist fun entry hbusy => ?_
    split_ifs at hbusy ⊢
    rfl

theorem kept_ready (h : cache.Kept) (key : SessionKey) (id bytes now : Nat) :
    (cache.ready key id bytes now).Kept := by
  have hloop := ready_eviction h key id bytes now
  refine ⟨(ready_spec h.distinct key id bytes now).1, ?_⟩
  obtain hlimits | hbusy := hloop.stops
  · exact hlimits
  · -- only entries are left that were busy all along
    have hleft : (cache.ready key id bytes now).entries.Sublist cache.entries := by
      rw [← List.filter_eq_self.mpr hbusy]
      exact (hloop.sublist.filter _).trans busy_release_sublist
    exact h.limits.sublist hleft

theorem kept_stream (h : cache.Kept) (key : Option SessionKey) (now : Nat) :
    (cache.stream key now).Kept := by
  unfold stream
  cases key with
  | none => exact ⟨h.distinct, h.limits⟩
  | some key =>
    simp only
    split
    · next hnone =>
      -- a new entry is busy and has no bytes yet
      refine ⟨h.distinct.append hnone, ?_, ?_⟩
      · simpa [addActor, List.countP_append] using h.limits.idle
      · simpa [addActor] using h.limits.bytes
    · split
      · exact h
      · refine ⟨?_, Entries.withinLimits_busy h.limits key⟩
        exact h.distinct.update key fun entry => { entry with busy := true }

theorem kept_removeIdle (h : cache.Kept) (key : SessionKey) (id : Nat) :
    (cache.removeIdle key id).1.Kept := by
  have hremoved : ({ cache with entries := cache.entries.remove key } : Cache).Kept :=
    ⟨h.distinct.remove key, h.limits.sublist List.filter_sublist⟩
  unfold removeIdle
  split
  · split_ifs
    · exact h
    · exact hremoved
    · exact h
  · exact h

theorem kept_removeOwn (h : cache.Kept) (key : SessionKey) (id : Nat) :
    (cache.removeOwn key id).Kept := by
  unfold removeOwn
  split_ifs
  · exact ⟨h.distinct.remove key, h.limits.sublist List.filter_sublist⟩
  · exact h

/-! ### Runs of the cache -/

/-- An operation of the cache, with what its callers pass; or its hash map moves its entries. -/
inductive Op
  | stream (key : Option SessionKey) (now : Nat)
  | ready (key : SessionKey) (id bytes now : Nat)
  | removeIdle (key : SessionKey) (id : Nat)
  | removeOwn (key : SessionKey) (id : Nat)
  | rehash (entries : Entries)

/-- A step of the cache. No caller is assumed to own what it names, and the clock may show any
time. -/
def step (cache : Cache) : Op → Option Cache
  | .stream key now => some (cache.stream key now)
  | .ready key id bytes now => some (cache.ready key id bytes now)
  | .removeIdle key id => some (cache.removeIdle key id).1
  | .removeOwn key id => some (cache.removeOwn key id)
  | .rehash entries =>
    if entries.Perm cache.entries then some { cache with entries } else none

/-- The cache at the start. -/
def empty : Cache := ⟨[], 0⟩

theorem kept_step {cache' : Cache} {op : Op} (h : cache.Kept) (hstep : ofFun step cache op cache') :
    cache'.Kept := by
  cases op with
  | stream key now =>
    cases hstep
    exact kept_stream h key now
  | ready key id bytes now =>
    cases hstep
    exact kept_ready h key id bytes now
  | removeIdle key id =>
    cases hstep
    exact kept_removeIdle h key id
  | removeOwn key id =>
    cases hstep
    exact kept_removeOwn h key id
  | rehash entries =>
    simp only [ofFun, step] at hstep
    split_ifs at hstep with hperm
    cases hstep
    exact ⟨(hperm.map _).nodup_iff.mpr h.distinct, h.limits.perm hperm⟩

/-- **Runs stay within the budget.** -/
theorem kept_of_run {ops : List Op} (hrun : Run (ofFun step) empty ops cache) : cache.Kept :=
  hrun.invariant (fun _ _ _ => kept_step) ⟨List.nodup_nil, by decide, by decide⟩

/-- What `ready` does in a cache: it changes no entry that another actor is busy with; it runs the
eviction loop to its end; what it evicts is idle and at least as old as what stays idle; and it evicts
nothing where both limits hold after the release. -/
structure ReadySound (cache : Cache) (key : SessionKey) (id bytes now : Nat) : Prop where
  /-- Busy entries of other actors stay as they are. -/
  busy : ∀ key' entry, (key', entry) ∈ cache.entries → entry.busy = true →
    ¬ (key' = key ∧ entry.id = id) → (key', entry) ∈ (cache.ready key id bytes now).entries
  /-- The loop terminates, and a round is only made while a limit is exceeded. -/
  loop : Entries.Eviction (cache.release key id bytes now) (cache.ready key id bytes now).entries
  /-- The oldest entries go first. -/
  order : ∀ e ∈ cache.release key id bytes now, e ∉ (cache.ready key id bytes now).entries →
    e.2.busy = false ∧ ∀ e' ∈ (cache.ready key id bytes now).entries, e'.2.busy = false →
      e.2.lastUsed ≤ e'.2.lastUsed
  /-- Nothing is evicted without need. -/
  spared : (cache.release key id bytes now).WithinLimits →
    (cache.ready key id bytes now).entries = cache.release key id bytes now

/-- **The budget and the order of evictions.** In every cache that operations lead to, the idle
entries and the bytes are within their limits, and every `ready` is sound. -/
theorem budget_of_run {ops : List Op} (hrun : Run (ofFun step) empty ops cache) :
    cache.entries.WithinLimits ∧ ∀ key id bytes now, cache.ReadySound key id bytes now := by
  have hkept := kept_of_run hrun
  refine ⟨hkept.limits, fun key id bytes now => ?_⟩
  have hloop := ready_eviction hkept key id bytes now
  exact {
    busy := (ready_spec hkept.distinct key id bytes now).2.2.1
    loop := hloop
    order := fun e => hloop.oldest_first (distinct_release hkept.distinct)
    spared := hloop.eq_of_withinLimits }

/-- Two sessions whose snapshots fit the budget only one at a time. -/
private def crowdedOps : List Op :=
  [.stream (some ⟨"client", "thread_id", "a"⟩) 1, .stream (some ⟨"client", "thread_id", "b"⟩) 2,
    .ready ⟨"client", "thread_id", "a"⟩ 0 maxContextBytes 3]

/-- The cache they lead to. -/
private def crowded : Cache :=
  ⟨[(⟨"client", "thread_id", "a"⟩, ⟨0, false, 3, maxContextBytes⟩),
    (⟨"client", "thread_id", "b"⟩, ⟨1, true, 2, 0⟩)], 2⟩

/-- The second session to become ready evicts the first. -/
theorem budget_of_run_crowded :
    crowded.entries.WithinLimits ∧ crowded.ReadySound ⟨"client", "thread_id", "b"⟩ 1 1 4 ∧
      (crowded.ready ⟨"client", "thread_id", "b"⟩ 1 1 4).entries.map (·.1.value) = ["b"] := by
  have hrun : Run (ofFun step) empty crowdedOps crowded := run_ofFun_iff.mpr (by decide)
  obtain ⟨hlimits, hready⟩ := budget_of_run hrun
  exact ⟨hlimits, hready _ _ _ _, by decide⟩

end Cache

end CodexApi
