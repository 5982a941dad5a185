import CodexApi.Error
import CodexApi.Upstream.Headers

/-!
# The session cache

The map from session keys to the entries of their actors, with its operations: `markBusy` and
`insert` as `stream` performs them under the lock, `ready`, `removeIdle` and `removeOwn`. A hash
map is the list of its entries in iteration order; the order matters only between entries that
are equally old, and every order is allowed.

The lemmas say what an operation can do to an entry. An entry that an operation does not concern
survives it while it is busy (`mem_ready_of_busy`), and what is in the cache afterwards was there
before, up to being released (`mem_of_mem_ready`).
-/

namespace CodexApi

/-- The key of a session: client, header name and header value. -/
structure SessionKey where
  client : String
  header : String
  value : String
deriving DecidableEq

/-- `SessionKey::from_headers`. -/
def SessionKey.fromHeaders (client : String) (headers : HeaderMap) :
    Except ApiError (Option SessionKey) :=
  go ["thread_id", "session_id"]
where
  go : List String → Except ApiError (Option SessionKey)
    | [] => .ok none
    | header :: rest =>
      match headers.get header with
      | none => go rest
      | some value =>
        match value.toStr.filter (!isBlank ·) with
        | none => .error (.invalid header "session header must be a nonempty string")
        | some value => .ok (some ⟨client, header, value⟩)

/-- A bad session header is answered with 400. -/
theorem SessionKey.fromHeaders_failsWith (client : String) (headers : HeaderMap) :
    FailsWith (·.status = 400) (SessionKey.fromHeaders client headers) := by
  have searched (names : List String) :
      FailsWith (·.status = 400) (SessionKey.fromHeaders.go client headers names) := by
    induction names with
    | nil => exact .ok none
    | cons header rest ih =>
      unfold SessionKey.fromHeaders.go
      split
      · exact ih
      · split
        · exact .error rfl
        · exact .ok _
  exact searched _

/-- The entry of a session: its actor, whether it has a turn, and what the eviction compares. -/
structure Entry where
  id : Nat
  busy : Bool
  lastUsed : Nat
  bytes : Nat
deriving DecidableEq

/-- The entries of the cache in iteration order. -/
abbrev Entries := List (SessionKey × Entry)

/-- The cache. -/
structure Cache where
  entries : Entries
  nextId : Nat
deriving DecidableEq

/-- `MAX_IDLE_SESSIONS`. -/
def maxIdleSessions : Nat := 64

/-- `MAX_CONTEXT_BYTES`. -/
def maxContextBytes : Nat := 64 * 1024 * 1024

namespace Entries

/-- The entry of a key. -/
def get (entries : Entries) (key : SessionKey) : Option Entry := entries.lookup key

/-- Removes the entry of a key. -/
def remove (entries : Entries) (key : SessionKey) : Entries :=
  entries.filter fun e => decide (e.1 ≠ key)

/-- Changes the entry of a key. -/
def update (entries : Entries) (key : SessionKey) (f : Entry → Entry) : Entries :=
  entries.map fun e => if e.1 = key then (e.1, f e.2) else e

/-- The first of the idle entries that were used least recently. -/
def oldestIdle : Entries → Option (SessionKey × Entry)
  | [] => none
  | e :: entries =>
    match oldestIdle entries with
    | none => if e.2.busy then none else some e
    | some oldest => if !e.2.busy ∧ e.2.lastUsed ≤ oldest.2.lastUsed then some e else some oldest

/-- One round of the eviction loop; `none` where it breaks. -/
def evictOldest (entries : Entries) : Option Entries :=
  if entries.countP (!·.2.busy) ≤ maxIdleSessions ∧
      (entries.map (·.2.bytes)).sum ≤ maxContextBytes then none
  else (oldestIdle entries).map fun oldest => entries.remove oldest.1

/-- At most `rounds` rounds of the eviction loop. -/
def evictRounds : Nat → Entries → Entries
  | 0, entries => entries
  | rounds + 1, entries =>
    match evictOldest entries with
    | none => entries
    | some entries => evictRounds rounds entries

/-- The eviction loop, which removes an entry a round. -/
def evict (entries : Entries) : Entries := evictRounds entries.length entries

end Entries

namespace Cache

/-- `stream` on a key whose session is idle. -/
def markBusy (cache : Cache) (key : SessionKey) : Cache :=
  { cache with entries := cache.entries.update key fun entry => { entry with busy := true } }

/-- `stream` on a key without a session, or without a key. -/
def addActor (cache : Cache) (key : Option SessionKey) (now : Nat) : Cache where
  entries := match key with
    | some key => cache.entries ++ [(key, ⟨cache.nextId, true, now, 0⟩)]
    | none => cache.entries
  nextId := cache.nextId + 1

/-- Whether the entry of a key belongs to an actor. -/
def owns (cache : Cache) (key : SessionKey) (id : Nat) : Bool :=
  (cache.entries.get key).any (·.id = id)

/-- `ready`. -/
def ready (cache : Cache) (key : SessionKey) (id bytes now : Nat) : Cache :=
  if maxContextBytes < bytes ∧ cache.owns key id then
    { cache with entries := cache.entries.remove key }
  else
    let entries := cache.entries.update key fun entry =>
      if entry.id = id then { entry with busy := false, lastUsed := now, bytes } else entry
    { cache with entries := entries.evict }

/-- `remove_idle`: the cache it leaves, and whether the actor may end. -/
def removeIdle (cache : Cache) (key : SessionKey) (id : Nat) : Cache × Bool :=
  match cache.entries.get key with
  | some entry =>
    if entry.id = id ∧ entry.busy then (cache, false)
    else if entry.id = id then ({ cache with entries := cache.entries.remove key }, true)
    else (cache, true)
  | none => (cache, true)

/-- The end of `run`: the actor removes its entry. -/
def removeOwn (cache : Cache) (key : SessionKey) (id : Nat) : Cache :=
  if cache.owns key id then { cache with entries := cache.entries.remove key } else cache

end Cache

/-! ### Entries have distinct keys -/

namespace Entries

variable {entries : Entries} {key key' : SessionKey} {entry : Entry} {e : SessionKey × Entry}
  {f : Entry → Entry}

/-- No key has two entries. -/
def Distinct (entries : Entries) : Prop := (entries.map Prod.fst).Nodup

theorem get_cons : get ((key', entry) :: entries) key =
    if key = key' then some entry else entries.get key := by
  rw [get, List.lookup_cons]
  by_cases h : key = key'
  · simp [h]
  · simp [h, beq_eq_false_iff_ne.mpr h, get]

theorem get_eq_some_of_mem (h : entries.Distinct) (hmem : (key, entry) ∈ entries) :
    entries.get key = some entry := by
  induction entries with
  | nil => simp at hmem
  | cons head tail ih =>
    obtain ⟨hhead, htail⟩ := List.nodup_cons.mp h
    rw [show head :: tail = (head.1, head.2) :: tail from rfl, get_cons]
    rcases List.mem_cons.mp hmem with rfl | hmem
    · rw [if_pos rfl]
    · rw [if_neg, ih htail hmem]
      rintro rfl
      exact hhead (List.mem_map.mpr ⟨_, hmem, rfl⟩)

theorem mem_of_get_eq_some (h : entries.get key = some entry) : (key, entry) ∈ entries := by
  induction entries with
  | nil => simp [get] at h
  | cons head tail ih =>
    rw [show head :: tail = (head.1, head.2) :: tail from rfl, get_cons] at h
    split_ifs at h with heq
    · rw [heq, ← Option.some.inj h]
      exact List.mem_cons_self
    · exact List.mem_cons_of_mem _ (ih h)

theorem get_eq_none_iff (h : entries.Distinct) :
    entries.get key = none ↔ ∀ entry, (key, entry) ∉ entries := by
  constructor
  · intro hnone entry hmem
    rw [get_eq_some_of_mem h hmem] at hnone
    cases hnone
  · intro hnone
    cases hget : entries.get key with
    | none => rfl
    | some entry => exact absurd (mem_of_get_eq_some hget) (hnone entry)

/-- Two entries of a key are one. -/
theorem Distinct.unique (h : entries.Distinct) {entry' : Entry} (hmem : (key, entry) ∈ entries)
    (hmem' : (key, entry') ∈ entries) : entry = entry' := by
  have hget := get_eq_some_of_mem h hmem
  rw [get_eq_some_of_mem h hmem'] at hget
  exact (Option.some.inj hget).symm

@[simp]
theorem mem_remove : e ∈ entries.remove key ↔ e ∈ entries ∧ e.1 ≠ key := by
  simp [remove]

theorem mem_update : e ∈ entries.update key f ↔
    (e ∈ entries ∧ e.1 ≠ key) ∨ ∃ entry, (key, entry) ∈ entries ∧ e = (key, f entry) := by
  simp only [update, List.mem_map]
  constructor
  · rintro ⟨⟨key', entry⟩, hmem, rfl⟩
    by_cases heq : key' = key
    · subst heq
      exact .inr ⟨entry, hmem, by simp⟩
    · exact .inl (by simp [heq, hmem])
  · rintro (⟨hmem, hne⟩ | ⟨entry, hmem, rfl⟩)
    · exact ⟨e, hmem, by simp [hne]⟩
    · exact ⟨_, hmem, by simp⟩

theorem Distinct.remove (h : entries.Distinct) (key : SessionKey) :
    (entries.remove key).Distinct :=
  (List.filter_sublist.map Prod.fst).nodup h

theorem Distinct.update (h : entries.Distinct) (key : SessionKey) (f : Entry → Entry) :
    (entries.update key f).Distinct := by
  have hkeys : (entries.update key f).map Prod.fst = entries.map Prod.fst := by
    rw [Entries.update, List.map_map]
    refine List.map_congr_left fun e _ => ?_
    by_cases heq : e.1 = key <;> simp [heq]
  rw [Distinct, hkeys]
  exact h

theorem Distinct.append (h : entries.Distinct) (hnone : entries.get key = none) :
    (entries ++ [(key, entry)]).Distinct := by
  rw [Distinct, List.map_append, List.nodup_append]
  refine ⟨h, List.nodup_singleton _, fun k hk k' hk' => ?_⟩
  obtain ⟨⟨k, entry'⟩, hmem, rfl⟩ := List.mem_map.mp hk
  obtain rfl := List.mem_singleton.mp hk'
  rintro rfl
  exact (get_eq_none_iff h).mp hnone entry' hmem

/-! ### What eviction removes -/

theorem oldestIdle_mem {oldest : SessionKey × Entry} (h : entries.oldestIdle = some oldest) :
    oldest ∈ entries ∧ oldest.2.busy = false := by
  induction entries generalizing oldest with
  | nil => cases h
  | cons head tail ih =>
    simp only [oldestIdle] at h
    split at h
    · split_ifs at h with hbusy
      cases h
      exact ⟨List.mem_cons_self, by simpa using hbusy⟩
    · next other hother =>
      split_ifs at h with hidle
      · cases h
        exact ⟨List.mem_cons_self, by simpa using hidle.1⟩
      · cases h
        exact ⟨List.mem_cons_of_mem _ (ih hother).1, (ih hother).2⟩

/-- A round of the eviction removes one idle key. -/
theorem evictOldest_eq_some {entries' : Entries} (h : entries.evictOldest = some entries') :
    ∃ oldest ∈ entries, oldest.2.busy = false ∧ entries' = entries.remove oldest.1 := by
  unfold evictOldest at h
  split_ifs at h
  obtain ⟨oldest, holdest, rfl⟩ := Option.map_eq_some_iff.mp h
  exact ⟨oldest, (oldestIdle_mem holdest).1, (oldestIdle_mem holdest).2, rfl⟩

theorem evictRounds_spec (h : entries.Distinct) (rounds : Nat) :
    (evictRounds rounds entries).Distinct ∧ (∀ e ∈ evictRounds rounds entries, e ∈ entries) ∧
      ∀ e ∈ entries, e.2.busy = true → e ∈ evictRounds rounds entries := by
  induction rounds generalizing entries with
  | zero => exact ⟨h, fun e he => he, fun e he _ => he⟩
  | succ rounds ih =>
    simp only [evictRounds]
    split
    · exact ⟨h, fun e he => he, fun e he _ => he⟩
    · next entries' hround =>
      obtain ⟨oldest, hmem, hidle, rfl⟩ := evictOldest_eq_some hround
      obtain ⟨hdistinct, hsub, hbusy⟩ := ih (h.remove _)
      refine ⟨hdistinct, fun e he => (mem_remove.mp (hsub e he)).1, fun e he hb => ?_⟩
      refine hbusy e (mem_remove.mpr ⟨he, ?_⟩) hb
      intro heq
      have hmem' : (e.1, oldest.2) ∈ entries := heq ▸ hmem
      have hsame : e.2 = oldest.2 := h.unique he hmem'
      rw [hsame, hidle] at hb
      cases hb

theorem length_remove_lt (h : e ∈ entries) : (entries.remove e.1).length < entries.length := by
  have hremoved : ∃ a ∈ entries, ¬ decide (a.1 ≠ e.1) = true := ⟨e, h, by simp⟩
  exact List.length_filter_lt_length_iff_exists.mpr hremoved

/-- **The eviction loop.** It stops where its condition holds or no entry is idle, and never for
want of rounds. -/
theorem evict_eq (entries : Entries) : entries.evict =
    match entries.evictOldest with
    | none => entries
    | some entries => entries.evict := by
  have hrounds : ∀ (n m : Nat) (entries : Entries), entries.length ≤ n → entries.length ≤ m →
      evictRounds n entries = evictRounds m entries := by
    intro n
    induction n with
    | zero =>
      intro m entries hn _
      obtain rfl : entries = [] := List.length_eq_zero_iff.mp (Nat.le_zero.mp hn)
      cases m <;> rfl
    | succ n ih =>
      intro m entries hn hm
      cases m with
      | zero =>
        obtain rfl : entries = [] := List.length_eq_zero_iff.mp (Nat.le_zero.mp hm)
        rfl
      | succ m =>
        simp only [evictRounds]
        split
        · rfl
        · next entries' hround =>
          obtain ⟨oldest, hmem, -, rfl⟩ := evictOldest_eq_some hround
          have hlt := length_remove_lt hmem
          exact ih m _ (by omega) (by omega)
  unfold evict
  cases hround : entries.evictOldest with
  | none => cases hlength : entries.length <;> simp [evictRounds, hround]
  | some entries' =>
    obtain ⟨oldest, hmem, -, rfl⟩ := evictOldest_eq_some hround
    have hlt := length_remove_lt hmem
    obtain ⟨n, hn⟩ : ∃ n, entries.length = n + 1 := ⟨entries.length - 1, by omega⟩
    rw [hn]
    simp only [evictRounds, hround]
    exact hrounds _ _ _ (by omega) le_rfl

end Entries

/-! ### What the operations do to an entry -/

namespace Cache

variable {cache : Cache} {key key' : SessionKey} {id bytes now : Nat} {entry : Entry}

theorem owns_iff (h : cache.entries.Distinct) :
    cache.owns key id = true ↔ ∃ entry, (key, entry) ∈ cache.entries ∧ entry.id = id := by
  rw [owns]
  constructor
  · intro howns
    cases hget : cache.entries.get key with
    | none => simp [hget] at howns
    | some entry =>
      rw [hget] at howns
      exact ⟨entry, Entries.mem_of_get_eq_some hget, by simpa using howns⟩
  · rintro ⟨entry, hmem, rfl⟩
    rw [Entries.get_eq_some_of_mem h hmem]
    simp

/-- A call on an idle session changes its entry only. -/
theorem mem_markBusy : (key', entry) ∈ (cache.markBusy key).entries ↔
    (key', entry) ∈ cache.entries ∧ key' ≠ key ∨
      ∃ own, (key, own) ∈ cache.entries ∧ key' = key ∧ entry = { own with busy := true } := by
  rw [markBusy, Entries.mem_update]
  simp only [Prod.mk.injEq]

/-- A new actor's entry is the only change. -/
theorem mem_addActor {key : Option SessionKey} :
    (key', entry) ∈ (cache.addActor key now).entries ↔
      (key', entry) ∈ cache.entries ∨ key = some key' ∧ entry = ⟨cache.nextId, true, now, 0⟩ := by
  cases key with
  | none => simp [addActor]
  | some key => simp [addActor, eq_comm]

theorem distinct_addActor {key : Option SessionKey} (h : cache.entries.Distinct)
    (hnone : ∀ k, key = some k → cache.entries.get k = none) :
    (cache.addActor key now).entries.Distinct := by
  cases key with
  | none => exact h
  | some key => exact h.append (hnone key rfl)

/-- The end of an actor removes its entry and no other. -/
theorem mem_removeOwn (h : cache.entries.Distinct) :
    (key', entry) ∈ (cache.removeOwn key id).entries ↔
      (key', entry) ∈ cache.entries ∧ ¬ (key' = key ∧ entry.id = id) := by
  unfold removeOwn
  split_ifs with howns
  · obtain ⟨own, hown, rfl⟩ := (owns_iff h).mp howns
    simp only [Entries.mem_remove, and_congr_right_iff]
    intro hmem
    constructor
    · exact fun hne hcontra => hne hcontra.1
    · rintro hne rfl
      exact hne ⟨rfl, congrArg Entry.id (h.unique hmem hown)⟩
  · constructor
    · refine fun hmem => ⟨hmem, ?_⟩
      rintro ⟨rfl, hid⟩
      exact howns ((owns_iff h).mpr ⟨entry, hmem, hid⟩)
    · exact And.left

/-- The expiry of an actor keeps a busy entry of its own, and removes at most an idle one. -/
theorem removeIdle_spec (h : cache.entries.Distinct) :
    ((cache.removeIdle key id).2 = false →
      (cache.removeIdle key id).1 = cache ∧
        ∃ entry, (key, entry) ∈ cache.entries ∧ entry.id = id ∧ entry.busy = true) ∧
    ((cache.removeIdle key id).2 = true →
      (∀ entry, (key, entry) ∈ cache.entries → entry.id = id → entry.busy = false) ∧
      ((cache.removeIdle key id).1 = cache ∧ cache.owns key id = false ∨
        (cache.removeIdle key id).1 = { cache with entries := cache.entries.remove key } ∧
          cache.owns key id = true)) := by
  unfold removeIdle owns
  cases hget : cache.entries.get key with
  | none =>
    refine ⟨fun hfalse => (Bool.noConfusion hfalse), fun _ => ⟨fun entry hmem => ?_, .inl ⟨rfl, rfl⟩⟩⟩
    exact absurd hmem ((Entries.get_eq_none_iff h).mp hget entry)
  | some own =>
    have hown := Entries.mem_of_get_eq_some hget
    simp only
    split_ifs with hbusy hid
    · exact ⟨fun _ => ⟨rfl, own, hown, hbusy⟩, fun htrue => htrue.elim⟩
    · refine ⟨fun hfalse => hfalse.elim, fun _ => ⟨fun entry hmem _ => ?_,
        .inr ⟨rfl, by simp [hid]⟩⟩⟩
      rw [h.unique hmem hown]
      simpa [hid] using hbusy
    · refine ⟨fun hfalse => hfalse.elim, fun _ => ⟨fun entry hmem hentry => ?_,
        .inl ⟨rfl, by simp [hid]⟩⟩⟩
      rw [h.unique hmem hown] at hentry
      exact absurd hentry hid

/-- An expiry that lets the actor end removes its entry and no other. -/
theorem mem_removeIdle (h : cache.entries.Distinct) (hends : (cache.removeIdle key id).2 = true) :
    (key', entry) ∈ (cache.removeIdle key id).1.entries ↔
      (key', entry) ∈ cache.entries ∧ ¬ (key' = key ∧ entry.id = id) := by
  rcases ((removeIdle_spec h).2 hends).2 with ⟨hsame, howns⟩ | ⟨hremoved, howns⟩
  · rw [hsame]
    refine ⟨fun hmem => ⟨hmem, ?_⟩, And.left⟩
    rintro ⟨rfl, hid⟩
    rw [(owns_iff h).mpr ⟨entry, hmem, hid⟩] at howns
    cases howns
  · rw [hremoved]
    obtain ⟨own, hown, hid⟩ := (owns_iff h).mp howns
    rw [Entries.mem_remove]
    refine and_congr_right fun hmem => ⟨fun hne hboth => hne hboth.1, ?_⟩
    rintro hother rfl
    exact hother ⟨rfl, by rw [h.unique hmem hown, hid]⟩

/-- **`ready`.** Distinct keys stay distinct; an entry that is there afterwards was there before,
or is the actor's own, released; a busy entry of another actor survives; and the actor's own
entry is busy no more. -/
theorem ready_spec (h : cache.entries.Distinct) (key : SessionKey) (id bytes now : Nat) :
    (cache.ready key id bytes now).entries.Distinct ∧
    (∀ key' entry, (key', entry) ∈ (cache.ready key id bytes now).entries →
      (key', entry) ∈ cache.entries ∨
        key' = key ∧ entry.id = id ∧ entry.busy = false ∧
          ∃ own, (key, own) ∈ cache.entries ∧ own.id = id) ∧
    (∀ key' entry, (key', entry) ∈ cache.entries → entry.busy = true →
      ¬ (key' = key ∧ entry.id = id) → (key', entry) ∈ (cache.ready key id bytes now).entries) ∧
    ∀ entry, (key, entry) ∈ (cache.ready key id bytes now).entries → entry.id = id →
      entry.busy = false := by
  unfold ready
  split_ifs with hlarge
  · obtain ⟨own, hown, hid⟩ := (owns_iff h).mp hlarge.2
    refine ⟨h.remove _, fun key' entry hmem => .inl (Entries.mem_remove.mp hmem).1,
      fun key' entry hmem _ hother => Entries.mem_remove.mpr ⟨hmem, ?_⟩, fun entry hmem => ?_⟩
    · rintro rfl
      exact hother ⟨rfl, by rw [h.unique hmem hown, hid]⟩
    · exact absurd rfl (Entries.mem_remove.mp hmem).2
  · have hupdated : (cache.entries.update key fun entry =>
        if entry.id = id then { entry with busy := false, lastUsed := now, bytes }
        else entry).Distinct := h.update _ _
    obtain ⟨hdistinct, hsub, hbusy⟩ :=
      Entries.evictRounds_spec hupdated (cache.entries.update key fun entry =>
        if entry.id = id then { entry with busy := false, lastUsed := now, bytes }
        else entry).length
    refine ⟨hdistinct, fun key' entry hmem => ?_, fun key' entry hmem hb hother => ?_,
      fun entry hmem hid => ?_⟩
    · rcases Entries.mem_update.mp (hsub _ hmem) with ⟨hold, -⟩ | ⟨own, hown, heq⟩
      · exact .inl hold
      · obtain ⟨rfl, rfl⟩ := Prod.mk.inj heq
        split_ifs with hid
        · exact .inr ⟨rfl, hid, rfl, own, hown, hid⟩
        · exact .inl hown
    · refine hbusy _ (Entries.mem_update.mpr ?_) hb
      by_cases hkey : key' = key
      · subst hkey
        refine .inr ⟨entry, hmem, ?_⟩
        rw [if_neg fun hid => hother ⟨rfl, hid⟩]
      · exact .inl ⟨hmem, hkey⟩
    · rcases Entries.mem_update.mp (hsub _ hmem) with ⟨-, hne⟩ | ⟨own, hown, heq⟩
      · exact absurd rfl hne
      · obtain ⟨-, rfl⟩ := Prod.mk.inj heq
        split_ifs at hid ⊢ with hown'
        · rfl
        · exact absurd hid hown'

end Cache

end CodexApi
