import CodexApi.Upstream.Requests

/-!
# The models cache

What the lock of the cache is good for. One operation holds it at a time, from its lookup to the end
of its fetch, so fetches do not overlap, and the operation that holds it is the last of `fetches`.
The list in the cache is that of the latest fetch that brought one, dated by the clock at its lookup,
and no other fetch that brought one is dated later; this holds for a clock that goes backwards too,
since a fetch is only begun where the clock shows at least an hour more than the cached date.

`models_cached` says what follows for the callers of `models`.
-/

namespace CodexApi

open Transition

/-! ### Fetches -/

/-- Whether an operation is past its lookup and has not ended. A `models` operation holds the lock of
the cache then. -/
def OperationPhase.holding (phase : OperationPhase) : Bool :=
  !phase.ended && decide (phase ≠ .locking)

/-- An operation ended with a list that it had read from the body of its response. -/
def Operation.Fetched (operation : Operation) (models : List Value) : Prop :=
  operation.phase = .returned (.models models) ∧
    operation.payload.bind modelsOfPayload = some models

/-- How long after the lookup of `fetch` the lookup of `operation` was, in nanoseconds. -/
def Operation.After (operation fetch : Operation) (nanos : Int) : Prop :=
  ∃ now fetchedAt, operation.now = some now ∧ fetch.now = some fetchedAt ∧
    nanos = now.unixTimestampNanos - fetchedAt.unixTimestampNanos

/-- If the fetch `i` brought a list, the lookup of `j` was an hour later at least. -/
def UpstreamClient.Apart (s : UpstreamClient) (i j : Nat) : Prop :=
  ∀ (fetch later : Operation) (models : List Value) (nanos : Int),
    s.operations[i]? = some fetch → s.operations[j]? = some later → fetch.Fetched models →
      later.After fetch nanos → modelsCacheTtl ≤ nanos

/-- What holds of the cache, its lock and the operations. -/
structure UpstreamClient.CacheKept (s : UpstreamClient) : Prop where
  locking : ∀ (i : Nat) (operation : Operation), s.operations[i]? = some operation →
    operation.phase = .locking → operation.now = none ∧ operation.payload = none ∧
      operation.requests = []
  timed : ∀ (i : Nat) (operation : Operation), s.operations[i]? = some operation →
    operation.target = .models → operation.phase.holding = true → operation.now ≠ none
  holding : ∀ (i : Nat) (operation : Operation), s.operations[i]? = some operation →
    operation.now ≠ none → operation.phase.holding = true → s.cacheHolder = some i
  entered : ∀ (i : Nat) (operation : Operation), s.operations[i]? = some operation →
    operation.target = .models → operation.requests ≠ [] → i ∈ s.fetches
  last : ∀ i, s.cacheHolder = some i → s.fetches.getLast? = some i ∧
    ∃ operation, s.operations[i]? = some operation ∧ operation.phase.holding = true
  nodup : s.fetches.Nodup
  begun : ∀ i ∈ s.fetches, ∃ operation now, s.operations[i]? = some operation ∧
    operation.now = some now ∧ operation.phase ≠ .locking
  cached : ∀ cached, s.modelsCache = some cached → ∃ i ∈ s.fetches, ∃ fetch,
    s.operations[i]? = some fetch ∧ fetch.Fetched cached.models ∧
      fetch.now = some cached.fetchedAt
  latest : ∀ (i : Nat) (fetch : Operation) (models : List Value) (fetchedAt : OffsetDateTime),
    i ∈ s.fetches → s.operations[i]? = some fetch → fetch.Fetched models →
      fetch.now = some fetchedAt → ∃ cached, s.modelsCache = some cached ∧
        fetchedAt.unixTimestampNanos ≤ cached.fetchedAt.unixTimestampNanos
  served : ∀ (i : Nat) (operation : Operation) (models : List Value),
    s.operations[i]? = some operation → operation.phase = .returned (.models models) →
      ∃ j ∈ s.fetches, ∃ fetch, s.operations[j]? = some fetch ∧ fetch.Fetched models ∧
        ∃ nanos, operation.After fetch nanos ∧ nanos < modelsCacheTtl
  apart : s.fetches.Pairwise s.Apart

section

variable {jwt : JwtDecoder} {s t : UpstreamClient} {index : Nat} {operation operation' : Operation}

theorem not_fetched_of_holding {models : List Value} (h : operation.phase.holding = true) :
    ¬ operation.Fetched models := by
  rintro ⟨hphase, -⟩
  rw [hphase] at h
  cases h

theorem not_fetched_of_locking {models : List Value} (h : operation.phase = .locking) :
    ¬ operation.Fetched models := by
  rintro ⟨hphase, -⟩
  rw [h] at hphase
  cases hphase

theorem UpstreamClient.CacheKept.init (vault : Vault) : (UpstreamClient.init vault).CacheKept := by
  constructor <;> simp [UpstreamClient.init]

/-- What an operation may come to that begins no fetch and ends none with a list. -/
structure Idles (s : UpstreamClient) (index : Nat) (operation' : Operation) : Prop where
  locking : operation'.phase = .locking →
    operation'.now = none ∧ operation'.payload = none ∧ operation'.requests = []
  timed : operation'.target = .models → operation'.phase.holding = true → operation'.now ≠ none
  holding : operation'.now ≠ none → operation'.phase.holding = true → s.cacheHolder = some index
  entered : operation'.target = .models → operation'.requests ≠ [] → index ∈ s.fetches
  result : ∀ models, operation'.phase ≠ .returned (.models models)
  was : ∀ operation, s.operations[index]? = some operation → operation.phase.ended = false ∧
    operation'.now = operation.now ∧ operation'.phase ≠ .locking

/-- The list in the cache stays while an operation comes, moves on or leaves without one. -/
theorem UpstreamClient.CacheKept.idle (hs : s.CacheKept) (h : Idles s index operation')
    (hother : ∀ i, i ≠ index → t.operations[i]? = s.operations[i]?)
    (hnew : t.operations[index]? = some operation') (hcache : t.modelsCache = s.modelsCache)
    (hfetches : t.fetches = s.fetches)
    (hholder : ∀ i, t.cacheHolder = some i ↔
      s.cacheHolder = some i ∧ (i = index → operation'.phase.holding = true)) : t.CacheKept := by
  have hcases : ∀ {i : Nat} {found : Operation}, t.operations[i]? = some found →
      i = index ∧ found = operation' ∨ i ≠ index ∧ s.operations[i]? = some found := by
    intro i found hfound
    rcases eq_or_ne i index with rfl | hne
    · exact .inl ⟨rfl, (Option.some.inj (hnew.symm.trans hfound)).symm⟩
    · exact .inr ⟨hne, (hother i hne).symm.trans hfound⟩
  -- An operation that fetched has ended, so it is not the one that changes.
  have hfetched : ∀ {i : Nat} {fetch : Operation} {models : List Value},
      s.operations[i]? = some fetch → fetch.Fetched models → t.operations[i]? = some fetch := by
    intro i fetch models hfetch hmodels
    have hne : i ≠ index := by
      rintro rfl
      obtain ⟨hended, -⟩ := h.was fetch hfetch
      rw [hmodels.1] at hended
      cases hended
    rw [hother i hne, hfetch]
  have hafter : ∀ {i : Nat} {found later : Operation} {now : OffsetDateTime},
      s.operations[i]? = some found → t.operations[i]? = some later → later.now = some now →
        found.now = some now := by
    intro i found later now hfound hlater hnow
    rcases hcases hlater with ⟨rfl, rfl⟩ | ⟨-, hlater⟩
    · exact (h.was found hfound).2.1.symm.trans hnow
    · obtain rfl := Option.some.inj (hfound.symm.trans hlater)
      exact hnow
  constructor
  · intro i found hfound hlocking
    rcases hcases hfound with ⟨-, rfl⟩ | ⟨-, hfound⟩
    · exact h.locking hlocking
    · exact hs.locking i found hfound hlocking
  · intro i found hfound htarget hholding
    rcases hcases hfound with ⟨-, rfl⟩ | ⟨-, hfound⟩
    · exact h.timed htarget hholding
    · exact hs.timed i found hfound htarget hholding
  · intro i found hfound htimed hholding
    rw [hholder]
    rcases hcases hfound with ⟨rfl, rfl⟩ | ⟨hne, hfound⟩
    · exact ⟨h.holding htimed hholding, fun _ => hholding⟩
    · exact ⟨hs.holding i found hfound htimed hholding, fun heq => absurd heq hne⟩
  · intro i found hfound htarget hsent
    rw [hfetches]
    rcases hcases hfound with ⟨rfl, rfl⟩ | ⟨-, hfound⟩
    · exact h.entered htarget hsent
    · exact hs.entered i found hfound htarget hsent
  · intro i hi
    obtain ⟨hi, hindex⟩ := (hholder i).mp hi
    obtain ⟨hlast, found, hfound, hholding⟩ := hs.last i hi
    refine ⟨hfetches ▸ hlast, ?_⟩
    rcases eq_or_ne i index with rfl | hne
    · exact ⟨operation', hnew, hindex rfl⟩
    · exact ⟨found, by rw [hother i hne, hfound], hholding⟩
  · rw [hfetches]
    exact hs.nodup
  · intro i hi
    obtain ⟨found, now, hfound, hnow, hphase⟩ := hs.begun i (hfetches ▸ hi)
    rcases eq_or_ne i index with rfl | hne
    · obtain ⟨-, hsame, hlocking⟩ := h.was found hfound
      exact ⟨operation', now, hnew, hsame.trans hnow, hlocking⟩
    · exact ⟨found, now, by rw [hother i hne, hfound], hnow, hphase⟩
  · intro cached hcached
    obtain ⟨i, hi, fetch, hfetch, hmodels, hdate⟩ := hs.cached cached (hcache ▸ hcached)
    exact ⟨i, hfetches ▸ hi, fetch, hfetched hfetch hmodels, hmodels, hdate⟩
  · intro i fetch models fetchedAt hi hfetch hmodels hdate
    rw [hcache]
    rcases hcases hfetch with ⟨-, rfl⟩ | ⟨-, hfetch⟩
    · exact absurd hmodels.1 (h.result models)
    · exact hs.latest i fetch models fetchedAt (hfetches ▸ hi) hfetch hmodels hdate
  · intro i found models hfound hreturned
    rcases hcases hfound with ⟨-, rfl⟩ | ⟨-, hfound⟩
    · exact absurd hreturned (h.result models)
    · obtain ⟨j, hj, fetch, hfetch, hmodels, hdate⟩ := hs.served i found models hfound hreturned
      exact ⟨j, hfetches ▸ hj, fetch, hfetched hfetch hmodels, hmodels, hdate⟩
  · rw [hfetches]
    refine hs.apart.imp_of_mem fun {i j} hi hj happart fetch later models nanos hfetch hlater
      hmodels hnanos => ?_
    obtain ⟨found, _, hfound, -⟩ := hs.begun j hj
    obtain ⟨now, fetchedAt, hnow, hdate, rfl⟩ := hnanos
    rcases hcases hfetch with ⟨-, rfl⟩ | ⟨-, hfetch⟩
    · exact absurd hmodels.1 (h.result models)
    · exact happart fetch found models _ hfetch hfound hmodels
        ⟨now, fetchedAt, hafter hfound hlater hnow, hdate, rfl⟩

/-- An operation before its lookup has begun no fetch. -/
theorem UpstreamClient.CacheKept.not_begun (hs : s.CacheKept)
    (hoperation : s.operations[index]? = some operation) (hphase : operation.phase = .locking) :
    index ∉ s.fetches := by
  intro hmem
  obtain ⟨found, _, hfound, -, hne⟩ := hs.begun index hmem
  obtain rfl := Option.some.inj (hoperation.symm.trans hfound)
  exact hne hphase

/-- A lookup that finds a fresh list. -/
theorem UpstreamClient.CacheKept.serve (hs : s.CacheKept) {now : OffsetDateTime}
    {cached : CachedModels} (hoperation : s.operations[index]? = some operation)
    (hphase : operation.phase = .locking) (hcached : s.modelsCache = some cached)
    (hfresh : cached.fresh now = true) :
    (s.setOperation index
      { operation with now := some now, phase := .returned (.models cached.models) }).CacheKept := by
  have hlt : index < s.operations.length := (List.getElem?_eq_some_iff.mp hoperation).1
  have hunbegun := hs.not_begun hoperation hphase
  obtain ⟨-, hpayload, hrequests⟩ := hs.locking index operation hoperation hphase
  have hother : ∀ {i : Nat} {found : Operation}, i ∈ s.fetches → s.operations[i]? = some found →
      (s.operations.set index
        { operation with now := some now, phase := .returned (.models cached.models) })[i]? =
        some found := by
    intro i found hi hfound
    have hne : index ≠ i := by
      rintro rfl
      exact hunbegun hi
    rw [List.getElem?_set_ne hne, hfound]
  constructor
  · intro i found hfound hlocking
    rcases getElem?_set_cases hfound with ⟨-, rfl⟩ | ⟨-, hfound⟩
    · cases hlocking
    · exact hs.locking i found hfound hlocking
  · intro i found hfound htarget hholding
    rcases getElem?_set_cases hfound with ⟨-, rfl⟩ | ⟨-, hfound⟩
    · cases hholding
    · exact hs.timed i found hfound htarget hholding
  · intro i found hfound htimed hholding
    rcases getElem?_set_cases hfound with ⟨-, rfl⟩ | ⟨-, hfound⟩
    · cases hholding
    · exact hs.holding i found hfound htimed hholding
  · intro i found hfound htarget hsent
    rcases getElem?_set_cases hfound with ⟨-, rfl⟩ | ⟨-, hfound⟩
    · exact absurd hrequests hsent
    · exact hs.entered i found hfound htarget hsent
  · intro i hi
    obtain ⟨hlast, found, hfound, hholding⟩ := hs.last i hi
    exact ⟨hlast, found, hother (List.mem_of_getLast? hlast) hfound, hholding⟩
  · exact hs.nodup
  · intro i hi
    obtain ⟨found, started, hfound, hrest⟩ := hs.begun i hi
    exact ⟨found, started, hother hi hfound, hrest⟩
  · intro cached hcached
    obtain ⟨i, hi, fetch, hfetch, hrest⟩ := hs.cached cached hcached
    exact ⟨i, hi, fetch, hother hi hfetch, hrest⟩
  · intro i fetch models fetchedAt hi hfetch
    rcases getElem?_set_cases hfetch with ⟨rfl, -⟩ | ⟨-, hfetch⟩
    · exact absurd hi hunbegun
    · exact hs.latest i fetch models fetchedAt hi hfetch
  · intro i found models hfound hreturned
    rcases getElem?_set_cases hfound with ⟨-, rfl⟩ | ⟨-, hfound⟩
    · obtain ⟨j, hj, fetch, hfetch, hmodels, hdate⟩ := hs.cached cached hcached
      cases hreturned
      exact ⟨j, hj, fetch, hother hj hfetch, hmodels, _, ⟨now, _, rfl, hdate, rfl⟩,
        of_decide_eq_true hfresh⟩
    · obtain ⟨j, hj, fetch, hfetch, hrest⟩ := hs.served i found models hfound hreturned
      exact ⟨j, hj, fetch, hother hj hfetch, hrest⟩
  · refine hs.apart.imp_of_mem fun {i j} hi hj happart fetch later models nanos hfetch hlater => ?_
    rcases getElem?_set_cases hfetch with ⟨rfl, -⟩ | ⟨-, hfetch⟩
    · exact absurd hi hunbegun
    · rcases getElem?_set_cases hlater with ⟨rfl, -⟩ | ⟨-, hlater⟩
      · exact absurd hj hunbegun
      · exact happart fetch later models nanos hfetch hlater

/-- A lookup that finds none, and takes the lock. -/
theorem UpstreamClient.CacheKept.fetch (hs : s.CacheKept) {now : OffsetDateTime} {caller : Nat}
    (hoperation : s.operations[index]? = some operation) (hphase : operation.phase = .locking)
    (hfree : s.cacheHolder = none)
    (hstale : ∀ cached, s.modelsCache = some cached → cached.fresh now = false)
    (hoperations : t.operations = s.operations.set index
      { operation with now := some now, phase := .authorizing caller })
    (hcache : t.modelsCache = s.modelsCache) (hholder : t.cacheHolder = some index)
    (hfetches : t.fetches = s.fetches ++ [index]) : t.CacheKept := by
  have hlt : index < s.operations.length := (List.getElem?_eq_some_iff.mp hoperation).1
  have hunbegun := hs.not_begun hoperation hphase
  have hnew : t.operations[index]? =
      some { operation with now := some now, phase := .authorizing caller } := by
    rw [hoperations, List.getElem?_set_self hlt]
  have hcases : ∀ {i : Nat} {found : Operation}, t.operations[i]? = some found →
      i = index ∧ found = { operation with now := some now, phase := .authorizing caller } ∨
        i ≠ index ∧ s.operations[i]? = some found := by
    intro i found hfound
    rw [hoperations] at hfound
    exact getElem?_set_cases hfound
  have hother : ∀ {i : Nat} {found : Operation}, i ∈ s.fetches → s.operations[i]? = some found →
      t.operations[i]? = some found := by
    intro i found hi hfound
    have hne : index ≠ i := by
      rintro rfl
      exact hunbegun hi
    rw [hoperations, List.getElem?_set_ne hne, hfound]
  obtain ⟨-, hpayload, hrequests⟩ := hs.locking index operation hoperation hphase
  constructor
  · intro i found hfound hlocking
    rcases hcases hfound with ⟨-, rfl⟩ | ⟨-, hfound⟩
    · cases hlocking
    · exact hs.locking i found hfound hlocking
  · intro i found hfound htarget hholding
    rcases hcases hfound with ⟨-, rfl⟩ | ⟨-, hfound⟩
    · simp
    · exact hs.timed i found hfound htarget hholding
  · intro i found hfound htimed hholding
    rcases hcases hfound with ⟨rfl, -⟩ | ⟨-, hfound⟩
    · exact hholder
    · have hheld := hs.holding i found hfound htimed hholding
      rw [hfree] at hheld
      cases hheld
  · intro i found hfound htarget hsent
    rw [hfetches]
    rcases hcases hfound with ⟨-, rfl⟩ | ⟨-, hfound⟩
    · exact absurd hrequests hsent
    · exact List.mem_append_left _ (hs.entered i found hfound htarget hsent)
  · intro i hi
    obtain rfl : index = i := Option.some.inj (hholder.symm.trans hi)
    exact ⟨by simp [hfetches], _, hnew, rfl⟩
  · rw [hfetches]
    refine List.nodup_append.mpr ⟨hs.nodup, by simp, ?_⟩
    rintro i hi j hj rfl
    exact hunbegun (List.mem_singleton.mp hj ▸ hi)
  · intro i hi
    rw [hfetches] at hi
    rcases List.mem_append.mp hi with hi | hi
    · obtain ⟨found, started, hfound, hrest⟩ := hs.begun i hi
      exact ⟨found, started, hother hi hfound, hrest⟩
    · obtain rfl := List.mem_singleton.mp hi
      exact ⟨_, now, hnew, rfl, by simp⟩
  · intro cached hcached
    obtain ⟨i, hi, fetch, hfetch, hrest⟩ := hs.cached cached (hcache ▸ hcached)
    exact ⟨i, hfetches ▸ List.mem_append_left _ hi, fetch, hother hi hfetch, hrest⟩
  · intro i fetch models fetchedAt hi hfetch hmodels hdate
    rw [hcache]
    rcases hcases hfetch with ⟨-, rfl⟩ | ⟨hne, hfetch⟩
    · cases hmodels.1
    · have hi : i ∈ s.fetches := by simpa [hfetches, hne] using hi
      exact hs.latest i fetch models fetchedAt hi hfetch hmodels hdate
  · intro i found models hfound hreturned
    rcases hcases hfound with ⟨-, rfl⟩ | ⟨-, hfound⟩
    · cases hreturned
    · obtain ⟨j, hj, fetch, hfetch, hrest⟩ := hs.served i found models hfound hreturned
      exact ⟨j, hfetches ▸ List.mem_append_left _ hj, fetch, hother hj hfetch, hrest⟩
  · rw [hfetches, List.pairwise_append]
    refine ⟨hs.apart.imp_of_mem fun {i j} hi hj happart fetch later models nanos hfetch hlater => ?_,
      by simp, ?_⟩
    · rcases hcases hfetch with ⟨rfl, -⟩ | ⟨-, hfetch⟩
      · exact absurd hi hunbegun
      · rcases hcases hlater with ⟨rfl, -⟩ | ⟨-, hlater⟩
        · exact absurd hj hunbegun
        · exact happart fetch later models nanos hfetch hlater
    · intro i hi j hj fetch later models nanos hfetch hlater hmodels hnanos
      obtain rfl := List.mem_singleton.mp hj
      obtain rfl := Option.some.inj (hnew.symm.trans hlater)
      obtain ⟨_, fetchedAt, hnow, hdate, rfl⟩ := hnanos
      obtain rfl : now = _ := Option.some.inj hnow
      rcases hcases hfetch with ⟨rfl, -⟩ | ⟨-, hfetch⟩
      · exact absurd hi hunbegun
      -- The cached list is dated no earlier than this fetch, and was not fresh.
      obtain ⟨cached, hcached, hle⟩ := hs.latest i fetch models fetchedAt hi hfetch hmodels hdate
      have hold : ¬ now.unixTimestampNanos - cached.fetchedAt.unixTimestampNanos < modelsCacheTtl :=
        of_decide_eq_false (hstale cached hcached)
      omega

/-- A list arrives, and is cached under the date of its lookup. -/
theorem UpstreamClient.CacheKept.store (hs : s.CacheKept) {now : OffsetDateTime}
    {models : List Value} (hoperation : s.operations[index]? = some operation)
    (hoperations : t.operations = s.operations.set index operation')
    (hholding : operation.phase.holding = true) (hnow : operation.now = some now)
    (hfetched : operation'.Fetched models) (hdate : operation'.now = some now)
    (htarget : operation'.target = operation.target)
    (hrequests : operation'.requests = operation.requests)
    (hcache : t.modelsCache = some ⟨now, models⟩) (hholder : t.cacheHolder = none)
    (hfetches : t.fetches = s.fetches) : t.CacheKept := by
  have hlt : index < s.operations.length := (List.getElem?_eq_some_iff.mp hoperation).1
  have hheld := hs.holding index operation hoperation (by simp [hnow]) hholding
  -- The fetch that ends is the last one.
  obtain ⟨earlier, hsplit⟩ := List.getLast?_eq_some_iff.mp (hs.last index hheld).1
  have hmem : index ∈ s.fetches := by simp [hsplit]
  have hnew : t.operations[index]? = some operation' := by
    rw [hoperations, List.getElem?_set_self hlt]
  have hphase : operation'.phase.holding = false := by rw [hfetched.1]; rfl
  have hcases : ∀ {i : Nat} {found : Operation}, t.operations[i]? = some found →
      i = index ∧ found = operation' ∨ i ≠ index ∧ s.operations[i]? = some found := by
    intro i found hfound
    rw [hoperations] at hfound
    exact getElem?_set_cases hfound
  have hother : ∀ {i : Nat} {fetch : Operation} {models : List Value},
      s.operations[i]? = some fetch → fetch.Fetched models → t.operations[i]? = some fetch := by
    intro i fetch models hfetch hmodels
    have hne : index ≠ i := by
      rintro rfl
      obtain rfl := Option.some.inj (hoperation.symm.trans hfetch)
      exact not_fetched_of_holding hholding hmodels
    rw [hoperations, List.getElem?_set_ne hne, hfetch]
  constructor
  · intro i found hfound hlocking
    rcases hcases hfound with ⟨-, rfl⟩ | ⟨-, hfound⟩
    · rw [hfetched.1] at hlocking
      cases hlocking
    · exact hs.locking i found hfound hlocking
  · intro i found hfound htarget hholding
    rcases hcases hfound with ⟨-, rfl⟩ | ⟨-, hfound⟩
    · rw [hphase] at hholding
      cases hholding
    · exact hs.timed i found hfound htarget hholding
  · intro i found hfound htimed hholding
    rcases hcases hfound with ⟨-, rfl⟩ | ⟨hne, hfound⟩
    · rw [hphase] at hholding
      cases hholding
    · have hheld' := hs.holding i found hfound htimed hholding
      rw [hheld] at hheld'
      exact absurd (Option.some.inj hheld').symm hne
  · intro i found hfound hmodels hsent
    rw [hfetches]
    rcases hcases hfound with ⟨rfl, -⟩ | ⟨-, hfound⟩
    · exact hmem
    · exact hs.entered i found hfound hmodels hsent
  · intro i hi
    rw [hholder] at hi
    cases hi
  · rw [hfetches]
    exact hs.nodup
  · intro i hi
    obtain ⟨found, started, hfound, hrest⟩ := hs.begun i (hfetches ▸ hi)
    rcases eq_or_ne index i with rfl | hne
    · exact ⟨operation', now, hnew, hdate, by simp [hfetched.1]⟩
    · exact ⟨found, started, by rw [hoperations, List.getElem?_set_ne hne, hfound], hrest⟩
  · intro cached hcached
    obtain rfl := Option.some.inj (hcache.symm.trans hcached)
    exact ⟨index, hfetches ▸ hmem, operation', hnew, hfetched, hdate⟩
  · intro i fetch found fetchedAt hi hfetch hmodels hdate'
    refine ⟨_, hcache, ?_⟩
    rcases hcases hfetch with ⟨-, rfl⟩ | ⟨hne, hfetch⟩
    · obtain rfl : now = fetchedAt := Option.some.inj (hdate.symm.trans hdate')
      exact le_rfl
    · have hi : i ∈ earlier := by simpa [hfetches, hsplit, hne] using hi
      have happart := hs.apart
      rw [hsplit, List.pairwise_append] at happart
      have hhour := happart.2.2 i hi index (by simp) fetch operation found _ hfetch hoperation
        hmodels ⟨now, fetchedAt, hnow, hdate', rfl⟩
      simp only [modelsCacheTtl] at hhour
      show fetchedAt.unixTimestampNanos ≤ now.unixTimestampNanos
      omega
  · intro i found list hfound hreturned
    rcases hcases hfound with ⟨rfl, rfl⟩ | ⟨-, hfound⟩
    · obtain rfl : models = list := by simpa [hfetched.1] using hreturned
      exact ⟨i, hfetches ▸ hmem, found, hnew, hfetched, _, ⟨now, now, hdate, hdate, rfl⟩,
        by simp [modelsCacheTtl]⟩
    · obtain ⟨j, hj, fetch, hfetch, hmodels, hrest⟩ := hs.served i found list hfound hreturned
      exact ⟨j, hfetches ▸ hj, fetch, hother hfetch hmodels, hmodels, hrest⟩
  · have hnodup := hs.nodup
    have happart := hs.apart
    rw [hsplit] at hnodup happart
    rw [List.pairwise_append] at happart
    have hkeep : ∀ i ∈ earlier, ∀ j, s.Apart i j → t.Apart i j := by
      intro i hi j hbefore fetch later models nanos hfetch hlater hmodels hnanos
      have hne : i ≠ index := by
        rintro rfl
        exact (List.nodup_append.mp hnodup).2.2 i hi i (by simp) rfl
      obtain ⟨started, fetchedAt, hstarted, hdate', rfl⟩ := hnanos
      rcases hcases hfetch with ⟨heq, -⟩ | ⟨-, hfetch⟩
      · exact absurd heq hne
      rcases hcases hlater with ⟨rfl, rfl⟩ | ⟨-, hlater⟩
      · obtain rfl : now = started := Option.some.inj (hdate.symm.trans hstarted)
        exact hbefore fetch operation models _ hfetch hoperation hmodels
          ⟨now, fetchedAt, hnow, hdate', rfl⟩
      · exact hbefore fetch later models _ hfetch hlater hmodels
          ⟨started, fetchedAt, hstarted, hdate', rfl⟩
    rw [hfetches, hsplit, List.pairwise_append]
    exact ⟨happart.1.imp_of_mem fun {i j} hi _ => hkeep i hi j, by simp,
      fun i hi j hj => hkeep i hi j (happart.2.2 i hi j hj)⟩

/-! ### Steps -/

theorem UpstreamClient.CacheKept.fetched_mem_fetches (hs : s.CacheKept)
    (hoperation : s.operations[index]? = some operation) (htarget : operation.target = .models)
    (hsent : operation.phase.holding = true ∨ operation.requests ≠ []) : index ∈ s.fetches := by
  rcases hsent with hholding | hrequests
  · have htimed := hs.timed index operation hoperation htarget hholding
    have hheld := hs.holding index operation hoperation htimed hholding
    exact List.mem_of_getLast? (hs.last index hheld).1
  · exact hs.entered index operation hoperation htarget hrequests

/-- An operation goes on with its request. -/
theorem UpstreamClient.CacheKept.proceed (hs : s.CacheKept)
    (hoperation : s.operations[index]? = some operation)
    (hoperations : t.operations = s.operations.set index operation')
    (hwas : operation.phase.holding = true) (hholding : operation'.phase.holding = true)
    (htarget : operation'.target = operation.target) (hnow : operation'.now = operation.now)
    (hcache : t.modelsCache = s.modelsCache) (hholder : t.cacheHolder = s.cacheHolder)
    (hfetches : t.fetches = s.fetches) : t.CacheKept := by
  have hlt : index < s.operations.length := (List.getElem?_eq_some_iff.mp hoperation).1
  have hidles : Idles s index operation' := by
    refine ⟨?_, ?_, ?_, ?_, ?_, ?_⟩
    · intro hlocking
      rw [hlocking] at hholding
      cases hholding
    · intro hmodels _
      rw [hnow]
      exact hs.timed index operation hoperation (htarget.symm.trans hmodels) hwas
    · intro htimed _
      rw [hnow] at htimed
      exact hs.holding index operation hoperation htimed hwas
    · intro hmodels _
      exact hs.fetched_mem_fetches hoperation (htarget.symm.trans hmodels) (.inl hwas)
    · intro models hreturned
      rw [hreturned] at hholding
      cases hholding
    · intro found hfound
      obtain rfl := Option.some.inj (hoperation.symm.trans hfound)
      simp only [OperationPhase.holding, Bool.and_eq_true, Bool.not_eq_true', decide_eq_true_eq]
        at hwas hholding
      exact ⟨hwas.1, hnow, hholding.2⟩
  refine hs.idle hidles (fun i hne => ?_) ?_ hcache hfetches fun i => ?_
  · rw [hoperations, List.getElem?_set_ne hne.symm]
  · rw [hoperations, List.getElem?_set_self hlt]
  · rw [hholder]
    exact ⟨fun hi => ⟨hi, fun _ => hholding⟩, (·.1)⟩

/-- An operation ends without a list. -/
theorem UpstreamClient.CacheKept.release (hs : s.CacheKept)
    (hoperation : s.operations[index]? = some operation)
    (hoperations : t.operations = s.operations.set index operation') (hwas : operation.phase.ended = false)
    (hended : operation'.phase.ended = true)
    (hresult : ∀ models, operation'.phase ≠ .returned (.models models))
    (htarget : operation'.target = operation.target) (hnow : operation'.now = operation.now)
    (hrequests : operation.phase.holding = true ∨ operation'.requests = operation.requests)
    (hcache : t.modelsCache = s.modelsCache)
    (hholder : t.cacheHolder = (s.unlockCache index).cacheHolder)
    (hfetches : t.fetches = s.fetches) : t.CacheKept := by
  have hlt : index < s.operations.length := (List.getElem?_eq_some_iff.mp hoperation).1
  have hnot : operation'.phase.holding = false := by simp [OperationPhase.holding, hended]
  have hidles : Idles s index operation' := by
    refine ⟨?_, ?_, ?_, ?_, hresult, ?_⟩
    · intro hlocking
      rw [hlocking] at hended
      cases hended
    · intro _ hholding
      rw [hnot] at hholding
      cases hholding
    · intro _ hholding
      rw [hnot] at hholding
      cases hholding
    · intro hmodels hsent
      refine hs.fetched_mem_fetches hoperation (htarget.symm.trans hmodels) (hrequests.imp_right ?_)
      intro hsame
      rwa [← hsame]
    · intro found hfound
      obtain rfl := Option.some.inj (hoperation.symm.trans hfound)
      refine ⟨hwas, hnow, fun hlocking => ?_⟩
      rw [hlocking] at hended
      cases hended
  refine hs.idle hidles (fun i hne => ?_) ?_ hcache hfetches fun i => ?_
  · rw [hoperations, List.getElem?_set_ne hne.symm]
  · rw [hoperations, List.getElem?_set_self hlt]
  · rw [hholder, hnot, UpstreamClient.unlockCache]
    constructor
    · intro hi
      split_ifs at hi with hheld
      exact ⟨hi, fun heq => absurd (heq ▸ hi) hheld⟩
    · rintro ⟨hi, hne⟩
      have hheld : s.cacheHolder ≠ some index := by
        intro hindex
        have heq : i = index := Option.some.inj (hi.symm.trans hindex)
        cases hne heq
      rw [if_neg hheld, hi]

/-- A call that is no lookup joins, or a lookup that waits for the lock. -/
theorem UpstreamClient.CacheKept.join (hs : s.CacheKept) (hrequests : operation.requests = [])
    (hnow : operation.now = none) (hpayload : operation.payload = none)
    (hphase : operation.phase = .locking ∨
      operation.phase.holding = true ∧ operation.target ≠ .models)
    (hoperations : t.operations = s.operations ++ [operation])
    (hcache : t.modelsCache = s.modelsCache) (hholder : t.cacheHolder = s.cacheHolder)
    (hfetches : t.fetches = s.fetches) : t.CacheKept := by
  have hidles : Idles s s.operations.length operation := by
    refine ⟨fun _ => ⟨hnow, hpayload, hrequests⟩, ?_, fun htimed => absurd hnow htimed,
      fun _ hsent => absurd hrequests hsent, ?_, ?_⟩
    · intro hmodels hholding
      rcases hphase with hlocking | ⟨-, hother⟩
      · rw [hlocking] at hholding
        cases hholding
      · exact absurd hmodels hother
    · intro models hreturned
      rcases hphase with hlocking | ⟨hholding, -⟩
      · rw [hreturned] at hlocking
        cases hlocking
      · rw [hreturned] at hholding
        cases hholding
    · intro found hfound
      simp at hfound
  refine hs.idle hidles (fun i hne => ?_) (by simp [hoperations]) hcache hfetches fun i => ?_
  · rw [hoperations]
    rcases lt_or_ge i s.operations.length with hlt | hge
    · exact List.getElem?_append_left hlt
    · rw [List.getElem?_eq_none hge, List.getElem?_eq_none]
      rw [List.length_append, List.length_singleton]
      omega
  · rw [hholder]
    refine ⟨fun hi => ⟨hi, ?_⟩, (·.1)⟩
    rintro rfl
    -- The operation that holds the lock is there already.
    obtain ⟨-, found, hfound, -⟩ := hs.last _ hi
    simp at hfound

theorem Target.refuses_ne_models {target : Target} {credentials : CredentialSnapshot}
    {result : OperationResult} (h : target.refuses credentials = some result) :
    ∀ models, result ≠ .models models := by
  rintro models rfl
  unfold Target.refuses at h
  cases target <;> split_ifs at h <;> cases h

theorem holding_of_awaiting (h : operation.phase.awaiting = true) :
    operation.phase.holding = true := by
  cases hphase : operation.phase <;> rw [hphase] at h <;> first | rfl | cases h

/-- What an operation that returns without a list was and is. -/
theorem Finishes.frame {result : OperationResult} (h : Finishes s operation operation' result) :
    operation.phase.holding = true ∧ operation'.target = operation.target ∧
      operation'.now = operation.now ∧ ∀ models, result ≠ .models models := by
  cases h with
  | credentials caller error hphase =>
    refine ⟨by rw [hphase]; rfl, rfl, rfl, fun models => ?_⟩
    cases operation.target <;> simp [Target.credentialsError]
  | refresh caller error hphase =>
    refine ⟨by rw [hphase]; rfl, rfl, rfl, fun models => ?_⟩
    cases operation.target <;> simp [Target.refreshError]
  | refused caller credentials result hphase hcaller hrefuses =>
    refine ⟨?_, rfl, rfl, Target.refuses_ne_models hrefuses⟩
    rcases hphase with hphase | hphase
    · rw [hphase]
      rfl
    · rw [hphase]
      rfl
  | transport hphase =>
    refine ⟨holding_of_awaiting hphase, rfl, rfl, fun models => ?_⟩
    cases operation.target <;> simp [Target.transportError]
  | rejected hphase =>
    refine ⟨by rw [hphase]; rfl, rfl, rfl, fun models => ?_⟩
    cases operation.target <;> simp [Target.rejected]
  | response code hphase => exact ⟨holding_of_awaiting hphase, rfl, rfl, by simp⟩
  | connected hphase => exact ⟨holding_of_awaiting hphase, rfl, rfl, by simp⟩
  | handshake code hphase => exact ⟨holding_of_awaiting hphase, rfl, rfl, by simp⟩
  | errorStatus code hphase => exact ⟨holding_of_awaiting hphase, rfl, rfl, by simp⟩
  | unread hphase => exact ⟨by rw [hphase]; rfl, rfl, rfl, by simp⟩
  | invalid payload hphase => exact ⟨by rw [hphase]; rfl, rfl, rfl, by simp⟩

theorem UpstreamClient.CacheKept.step (hs : s.CacheKept) (h : ClientMove jwt s t) :
    t.CacheKept := by
  cases h with
  | queue => exact hs.join rfl rfl rfl (.inl rfl) rfl rfl rfl rfl
  | start target vault htarget hvault =>
    exact hs.join rfl rfl rfl (.inr ⟨rfl, htarget⟩) rfl rfl rfl rfl
  | vault action vault hvault => exact { hs with }
  | operation index operation t hoperation hmove =>
    cases hmove with
    | serve now cached hphase hfree hcached hfresh =>
      exact hs.serve hoperation hphase hcached hfresh
    | fetch now vault hphase hfree hstale hvault =>
      exact hs.fetch hoperation hphase hfree hstale rfl rfl rfl rfl
    | send caller credentials hphase hcaller =>
      exact hs.proceed hoperation rfl (by rw [hphase]; rfl) rfl rfl rfl rfl rfl rfl
    | refresh credentials vault hphase hvault =>
      exact hs.proceed hoperation rfl (by rw [hphase]; rfl) rfl rfl rfl rfl rfl rfl
    | resend caller credentials hphase hcaller =>
      exact hs.proceed hoperation rfl (by rw [hphase]; rfl) rfl rfl rfl rfl rfl rfl
    | read code hphase hcode herror htarget =>
      exact hs.proceed hoperation rfl (holding_of_awaiting hphase) rfl rfl rfl rfl rfl rfl
    | store now payload models hphase hnow hmodels =>
      have hholding : operation.phase.holding = true := by rw [hphase]; rfl
      have hheld := hs.holding index operation hoperation (by simp [hnow]) hholding
      exact hs.store hoperation rfl hholding hnow ⟨rfl, hmodels⟩ hnow rfl rfl rfl (if_pos hheld) rfl
    | finish operation' result hfinish =>
      obtain ⟨hholding, htarget, hnow, hresult⟩ := hfinish.frame
      have hactive : operation.phase.ended = false := by
        simp only [OperationPhase.holding, Bool.and_eq_true, Bool.not_eq_true'] at hholding
        exact hholding.1
      refine hs.release hoperation rfl hactive rfl (fun models heq => ?_) htarget hnow (.inl hholding)
        rfl rfl rfl
      cases heq
      exact hresult models rfl
    | leave vault hactive hvault =>
      exact hs.release hoperation rfl hactive rfl (by simp) rfl rfl (.inr rfl) rfl rfl rfl

/-- A run keeps the cache and its lock. -/
theorem cacheKept_run {vault : Vault} {as : List ClientAction}
    (h : ClientRun jwt (.init vault) as s) : s.CacheKept :=
  h.invariant (I := UpstreamClient.CacheKept)
    (fun _ _ _ hs hstep => hs.step (clientMove_of_step hstep)) (.init vault)

end

/-! ### Lookups -/

/-- A fetch brought a list: a response that is no error had a body with the list in it, and every
entry of the list has a nonempty slug. -/
structure Operation.Brought (fetch : Operation) (models : List Value) : Prop where
  returned : fetch.phase = .returned (.models models)
  answered : ∃ credentials code, Attempts fetch.requests ⟨credentials, some (.status code)⟩ ∧
    ¬ (400 ≤ code ∧ code ≤ 599)
  listed : ∃ payload, fetch.payload = some payload ∧ payload.get "models" = some (.array models)
  slugs : ∀ model ∈ models, model.isObject = true ∧
    ∃ slug, slug ≠ "" ∧ modelSlug model = some slug

section

variable {fetch : Operation} {models : List Value} {payload : Value}

theorem isModelEntry_iff {model : Value} : isModelEntry model = true ↔
    model.isObject = true ∧ ∃ slug, slug ≠ "" ∧ modelSlug model = some slug := by
  simp only [isModelEntry, Value.isObject, Option.any_eq_true, decide_eq_true_eq,
    Option.isSome_iff_exists]
  constructor
  · rintro ⟨fields, hfields, slug, hslug, hne⟩
    exact ⟨⟨fields, hfields⟩, slug, hne, hslug⟩
  · rintro ⟨⟨fields, hfields⟩, slug, hne, hslug⟩
    exact ⟨fields, hfields, slug, hslug, hne⟩

theorem modelsOfPayload_eq_some_iff : modelsOfPayload payload = some models ↔
    payload.get "models" = some (.array models) ∧ ∀ model ∈ models, model.isObject = true ∧
      ∃ slug, slug ≠ "" ∧ modelSlug model = some slug := by
  rw [modelsOfPayload, Option.filter_eq_some_iff, Option.bind_eq_some_iff, List.all_eq_true]
  simp only [Value.asArray_eq_some_iff, isModelEntry_iff]
  constructor
  · rintro ⟨⟨found, hfound, rfl⟩, hslugs⟩
    exact ⟨hfound, hslugs⟩
  · rintro ⟨hfound, hslugs⟩
    exact ⟨⟨_, hfound, rfl⟩, hslugs⟩

theorem Operation.Brought.fetched (h : fetch.Brought models) : fetch.Fetched models := by
  obtain ⟨payload, hpayload, hlisted⟩ := h.listed
  refine ⟨h.returned, ?_⟩
  rw [hpayload]
  exact modelsOfPayload_eq_some_iff.mpr ⟨hlisted, h.slugs⟩

/-- What ended with a list read from a body has brought it. -/
theorem Operation.Fetched.brought (h : fetch.Fetched models)
    (hreports : Reports fetch.target fetch.requests fetch.payload (.models models)) :
    fetch.Brought models := by
  obtain ⟨hphase, hpayload⟩ := h
  obtain ⟨payload, hsome, hmodels⟩ := Option.bind_eq_some_iff.mp hpayload
  obtain ⟨hlisted, hslugs⟩ := modelsOfPayload_eq_some_iff.mp hmodels
  refine ⟨hphase, ?_, ⟨payload, hsome, hlisted⟩, hslugs⟩
  generalize hresult : OperationResult.models models = result at hreports
  cases hreports with
  | credentials error => cases htarget : fetch.target <;> rw [htarget] at hresult <;> cases hresult
  | cached _ _ _ hnone =>
    rw [hsome] at hnone
    cases hnone
  | refresh error => cases htarget : fetch.target <;> rw [htarget] at hresult <;> cases hresult
  | rejected => cases htarget : fetch.target <;> rw [htarget] at hresult <;> cases hresult
  | transport => cases htarget : fetch.target <;> rw [htarget] at hresult <;> cases hresult
  | response credentials code hattempts hcode =>
    refine ⟨credentials, code, hattempts, fun herror => ?_⟩
    cases htarget : fetch.target <;> rw [htarget] at hresult <;>
      simp only [Target.conclusion, if_pos herror, reduceCtorEq] at hresult
    split_ifs at hresult

end

/-- What holds of the lookups of models. -/
structure ModelsLaws (s : UpstreamClient) : Prop where
  /-- One of them fetches at a time. -/
  single : ∀ (i j : Nat) (operation operation' : Operation), s.operations[i]? = some operation →
    s.operations[j]? = some operation' → operation.target = .models →
    operation'.target = .models → operation.phase.holding = true →
    operation'.phase.holding = true → i = j
  /-- Only fetches send requests. -/
  sent : ∀ (i : Nat) (operation : Operation), s.operations[i]? = some operation →
    operation.target = .models → operation.requests ≠ [] → i ∈ s.fetches
  /-- A list that is returned was brought by a fetch that began less than an hour before. -/
  served : ∀ (i : Nat) (operation : Operation) (models : List Value),
    s.operations[i]? = some operation → operation.phase = .returned (.models models) →
      ∃ j ∈ s.fetches, ∃ fetch, s.operations[j]? = some fetch ∧ fetch.Brought models ∧
        ∃ nanos, operation.After fetch nanos ∧ nanos < modelsCacheTtl
  /-- After a fetch that brought a list, every other one begins an hour later at least. -/
  apart : s.fetches.Pairwise fun i j => ∀ (fetch later : Operation) (models : List Value)
    (nanos : Int), s.operations[i]? = some fetch → s.operations[j]? = some later →
      fetch.Brought models → later.After fetch nanos → modelsCacheTtl ≤ nanos

/-- **Models are fetched once an hour.** In every run of a process, with whatever calls of the client,
refreshes and cancellations, and for every behaviour of the clock, lookups fetch one at a time; each
list that is returned was brought by a fetch that began less than an hour before; and between a
fetch that brought a list and every later one, the clock has moved on by an hour at least. -/
theorem models_cached (jwt : JwtDecoder) (seed : CredentialSeed) (stored : Option CredentialsRow)
    (credential : Credential) (row : CredentialsRow)
    (hload : loadOrImportCredentials seed stored = .ok (credential, row))
    (hfits : upstreamHeadersAreValid credential.accessToken credential.accountId = true)
    (as : List ClientAction) (s : UpstreamClient)
    (h : ClientRun jwt (.init (.loaded credential row)) as s) : ModelsLaws s := by
  have hkept := cacheKept_run h
  obtain ⟨bs, -, hsound⟩ := exists_shadow (holds_of_loadOrImport hload) hfits h
  have hbrought : ∀ (i : Nat) (fetch : Operation) (models : List Value),
      s.operations[i]? = some fetch → fetch.Fetched models → fetch.Brought models := by
    intro i fetch models hfetch hfetched
    have hreports := hsound.kept i fetch hfetch
    simp only [Operation.Kept, OperationPhase.Keeps, hfetched.1] at hreports
    exact hfetched.brought hreports
  refine ⟨?_, hkept.entered, ?_, ?_⟩
  · intro i j operation operation' hi hj htarget htarget' hholding hholding'
    -- Both hold the one lock.
    have htimed := hkept.timed i operation hi htarget hholding
    have htimed' := hkept.timed j operation' hj htarget' hholding'
    have hheld := hkept.holding i operation hi htimed hholding
    have hheld' := hkept.holding j operation' hj htimed' hholding'
    exact Option.some.inj (hheld.symm.trans hheld')
  · intro i operation models hoperation hreturned
    obtain ⟨j, hj, fetch, hfetch, hmodels, hfresh⟩ :=
      hkept.served i operation models hoperation hreturned
    exact ⟨j, hj, fetch, hfetch, hbrought j fetch models hfetch hmodels, hfresh⟩
  · refine hkept.apart.imp fun {i j} happart fetch later models nanos hfetch hlater hmodels => ?_
    exact happart fetch later models nanos hfetch hlater hmodels.fetched

/-! ### Two lookups in an hour -/

/-- A response with one model. -/
def oneModel : Value := json [("models", .array [json [("slug", .string "small")]])]

/-- 59 minutes after `hundredSeconds`. -/
def secondLookup : OffsetDateTime := secondsAfterEpoch 3640

/-- A lookup that fetches, and one 59 minutes later that does not. -/
def twoLookups : List ClientAction :=
  let now := hundredSeconds
  let manager := fun action => ClientAction.vault (.manager action)
  [.start .models, .poll 0 now, .start .models, manager (.caller 0 now), manager (.caller 0 now),
    .poll 0 now, .reply 0 (.status 200), .body 0 (some oneModel),
    .poll 1 secondLookup]

/-- The second lookup after its return. -/
def servedLookup : Operation where
  target := .models
  phase := .returned (.models [json [("slug", .string "small")]])
  requests := []
  now := some secondLookup
  payload := none

/-- The second lookup has the list without a request. -/
theorem models_cached_two_lookups :
    ∃ s, ClientRun opaqueTokens (.init seededVault) twoLookups s ∧ s.fetches = [0] ∧
      s.operations[1]? = some servedLookup ∧ ModelsLaws s := by
  obtain ⟨s, hs, hstate⟩ := Option.map_eq_some_iff.mp
    (show (exec (clientStep opaqueTokens) (.init seededVault) twoLookups).map
      (fun s => decide (s.fetches = [0] ∧ s.operations[1]? = some servedLookup)) = some true by
        decide +kernel)
  have hrun : ClientRun opaqueTokens (.init seededVault) twoLookups s := run_ofFun_iff.mpr hs
  obtain ⟨hfetches, hsecond⟩ := of_decide_eq_true hstate
  exact ⟨s, hrun, hfetches, hsecond, models_cached opaqueTokens lateSeed none (.ofSeed lateSeed) _
    (by decide) (by decide) twoLookups s hrun⟩

end CodexApi
