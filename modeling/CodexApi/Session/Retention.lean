import CodexApi.Lib.List
import CodexApi.Session.Budget

/-!
# What a finished snapshot flushes

`ready` returns early for a snapshot that alone exceeds the budget, so that it flushes no other
session. The budget also counts the bytes of busy sessions, which cannot be evicted: where they leave
no room for the finishing session, the loop evicts every idle session that is older, and then
the finishing session too.

The entries that go before an idle entry are those `Ahead` of it. `mem_evict_iff` says that an entry
survives exactly when the limits hold without those ahead of it; `readySpares_iff` is what this means
for `ready`.
-/

namespace CodexApi

open Transition

namespace Entries

variable {entries : Entries} {e own : SessionKey × Entry}

/-! ### The order of the loop -/

/-- An idle entry that the loop removes before another: it is older, or as old and met earlier. -/
def Ahead (entries : Entries) (own e : SessionKey × Entry) : Prop :=
  e.2.busy = false ∧ (e.2.lastUsed < own.2.lastUsed ∨
    e.2.lastUsed = own.2.lastUsed ∧ e ≠ own ∧ [e, own].Sublist entries)

instance : Decidable (entries.Ahead own e) := inferInstanceAs (Decidable (_ ∧ _))

/-- The entries that are not ahead of one. -/
def behind (entries : Entries) (own : SessionKey × Entry) : Entries :=
  entries.filter fun e => ¬ entries.Ahead own e

/-- The entry that is found is ahead of every other idle entry. -/
theorem ahead_of_oldestIdle {oldest : SessionKey × Entry} (h : entries.oldestIdle = some oldest)
    (hmem : e ∈ entries) (hidle : e.2.busy = false) (hne : e ≠ oldest) :
    entries.Ahead e oldest := by
  refine ⟨(oldestIdle_mem h).2, ?_⟩
  induction entries generalizing oldest with
  | nil => cases h
  | cons head tail ih =>
    simp only [oldestIdle] at h
    split at h
    · next hnone =>
      split_ifs at h
      cases h
      obtain rfl | htail := List.mem_cons.mp hmem
      · exact absurd rfl hne
      · rw [oldestIdle_eq_none hnone e htail] at hidle
        cases hidle
    · next other hother =>
      split_ifs at h with hhead
      · cases h
        obtain rfl | htail := List.mem_cons.mp hmem
        · exact absurd rfl hne
        · have hle := hhead.2.trans (oldestIdle_least hother e htail hidle)
          refine (Nat.lt_or_eq_of_le hle).imp_right fun heq => ⟨heq, hne.symm, ?_⟩
          exact (List.singleton_sublist.mpr htail).cons_cons head
      · cases h
        obtain rfl | htail := List.mem_cons.mp hmem
        · have holder : ¬ e.2.lastUsed ≤ oldest.2.lastUsed := fun hle => hhead (by simp [hidle, hle])
          exact .inl (by omega)
        · refine (ih hother htail hne).imp_right ?_
          rintro ⟨heq, hneq, hsub⟩
          exact ⟨heq, hneq, hsub.cons head⟩

/-- Nothing is ahead of the entry that is found. -/
theorem not_ahead_of_oldestIdle (hdistinct : entries.Distinct) (h : entries.oldestIdle = some own)
    (hmem : e ∈ entries) : ¬ entries.Ahead own e := by
  rintro ⟨hidle, horder⟩
  have hle := oldestIdle_least h e hmem hidle
  obtain hlt | ⟨heq, hne, hsub⟩ := horder
  · omega
  · obtain hlt | ⟨-, -, hsub'⟩ := (ahead_of_oldestIdle h hmem hidle hne).2
    · omega
    · exact not_sublist_swap hdistinct.of_map hsub hsub'

/-- Without an entry that is ahead, the same entries are behind. -/
theorem behind_remove {oldest : SessionKey × Entry} (hdistinct : entries.Distinct)
    (hmem : oldest ∈ entries) (hne : own.1 ≠ oldest.1) (hahead : entries.Ahead own oldest) :
    (entries.remove oldest.1).behind own = entries.behind own := by
  unfold behind remove
  rw [List.filter_filter]
  refine List.filter_congr fun e he => ?_
  by_cases hkey : e.1 = oldest.1
  · obtain rfl : e = oldest := Prod.ext hkey (hdistinct.unique (hkey ▸ he) hmem)
    simp [hahead]
  · have hsub : [e, own].Sublist (entries.filter fun e => decide (e.1 ≠ oldest.1)) ↔
        [e, own].Sublist entries := by
      refine ⟨fun h => h.trans List.filter_sublist, fun h => ?_⟩
      simpa [hkey, hne] using h.filter fun e => decide (e.1 ≠ oldest.1)
    have hiff : Ahead (entries.filter fun e => decide (e.1 ≠ oldest.1)) own e ↔
        entries.Ahead own e := by
      rw [Ahead, Ahead, hsub]
    rw [decide_eq_true hkey, Bool.and_true, decide_eq_decide, hiff]

/-! ### Whether the loop keeps an entry -/

/-- **What the loop keeps.** Let the limits hold but for one idle entry. Then that entry survives the loop
exactly when the limits hold without the entries ahead of it; and if it does not survive, these
entries went before it, and no other. -/
theorem evict_keeps (hdistinct : entries.Distinct) (hmem : own ∈ entries)
    (hidle : own.2.busy = false) (hrest : (entries.remove own.1).WithinLimits) :
    (own ∈ entries.evict ↔ (entries.behind own).WithinLimits) ∧
      (own ∉ entries.evict → entries.evict = (entries.behind own).remove own.1) := by
  induction hlength : entries.length using Nat.strong_induction_on generalizing entries with
  | _ n ih =>
    subst hlength
    have hloop := evict_eviction entries
    by_cases hlimits : entries.WithinLimits
    · rw [hloop.eq_of_withinLimits hlimits]
      exact ⟨iff_of_true hmem (hlimits.sublist List.filter_sublist), fun hgone => absurd hmem hgone⟩
    · have hround : entries.evictOldest =
          (oldestIdle entries).map fun oldest => entries.remove oldest.1 :=
        if_neg fun h => hlimits ⟨h.1, h.2⟩
      cases holdest : entries.oldestIdle with
      | none =>
        rw [oldestIdle_eq_none holdest own hmem] at hidle
        cases hidle
      | some oldest =>
        have hevict : entries.evict = (entries.remove oldest.1).evict := by
          rw [evict_eq, hround, holdest]
          rfl
        obtain ⟨holdestMem, -⟩ := oldestIdle_mem holdest
        rw [hevict]
        by_cases hown : own = oldest
        · -- nothing is ahead of it, so it goes first, and the loop ends
          subst hown
          have hall : entries.behind own = entries :=
            List.filter_eq_self.mpr fun e he =>
              decide_eq_true (not_ahead_of_oldestIdle hdistinct holdest he)
          rw [(evict_eviction _).eq_of_withinLimits hrest, hall]
          exact ⟨iff_of_false (fun h => (mem_remove.mp h).2 rfl) hlimits, fun _ => rfl⟩
        · -- the entry that goes is ahead of it
          have hkey : own.1 ≠ oldest.1 := fun heq =>
            hown (Prod.ext heq (hdistinct.unique (heq ▸ hmem) holdestMem))
          have hahead := ahead_of_oldestIdle holdest hmem hidle hown
          rw [← behind_remove hdistinct holdestMem hkey hahead]
          refine ih _ (length_remove_lt holdestMem) (hdistinct.remove _)
            (mem_remove.mpr ⟨hmem, hkey⟩) ?_ rfl
          exact hrest.sublist (List.filter_sublist.filter _)

theorem remove_update {key : SessionKey} {f : Entry → Entry} :
    (entries.update key f).remove key = entries.remove key := by
  induction entries with
  | nil => rfl
  | cons head tail ih =>
    unfold update remove at *
    by_cases hkey : head.1 = key <;> simpa [hkey] using ih

/-- The entry of a key and the entries of the others are all. -/
theorem perm_cons_remove (hdistinct : entries.Distinct) (hmem : own ∈ entries) :
    entries.Perm (own :: entries.remove own.1) := by
  induction entries with
  | nil => cases hmem
  | cons head tail ih =>
    obtain ⟨hnew, htail⟩ := List.nodup_cons.mp hdistinct
    obtain rfl | hmem := List.mem_cons.mp hmem
    · have hsame : remove (own :: tail) own.1 = tail := by
        rw [remove, List.filter_cons_of_neg (by simp), List.filter_eq_self]
        exact fun e he => decide_eq_true fun heq => hnew (heq ▸ List.mem_map_of_mem he)
      rw [hsame]
    · have hne : head.1 ≠ own.1 := fun heq => hnew (heq ▸ List.mem_map_of_mem hmem)
      rw [remove, List.filter_cons_of_pos (by simpa using hne)]
      exact ((ih htail hmem).cons head).trans (.swap own head _)

theorem update_eq_self {key : SessionKey} {f : Entry → Entry}
    (h : ∀ entry, (key, entry) ∈ entries → f entry = entry) : entries.update key f = entries := by
  unfold update
  conv_rhs => rw [← List.map_id entries]
  refine List.map_congr_left fun e he => ?_
  split_ifs with hkey
  · subst hkey
    rw [h e.2 he]
    rfl
  · rfl

end Entries

/-! ### What `ready` spares -/

namespace Cache

variable {cache : Cache} {key : SessionKey} {id bytes now : Nat} {own : Entry}

/-- The entry of a finishing session once it is released. -/
def released (key : SessionKey) (own : Entry) (bytes now : Nat) : SessionKey × Entry :=
  (key, { own with busy := false, lastUsed := now, bytes })

/-- **A snapshot that cannot be kept flushes nothing**: if the finishing session has no entry after
`ready`, all other entries are still there. -/
def SparesOthers (cache : Cache) (key : SessionKey) (id bytes now : Nat) : Prop :=
  (cache.ready key id bytes now).owns key id = false →
    ∀ e ∈ cache.entries, ¬ (e.1 = key ∧ e.2.id = id) → e ∈ (cache.ready key id bytes now).entries

/-- A snapshot that is within the budget, with an idle session ahead of it, leaves the limits intact
once all that are ahead of it are gone. -/
def MakesRoom (cache : Cache) (key : SessionKey) (id bytes now : Nat) : Prop :=
  ∀ own, (key, own) ∈ cache.entries → own.id = id → bytes ≤ maxContextBytes →
    (∃ e ∈ cache.release key id bytes now,
      (cache.release key id bytes now).Ahead (released key own bytes now) e) →
    ((cache.release key id bytes now).behind (released key own bytes now)).WithinLimits

/-- An actor that does not own its entry changes nothing. -/
theorem entries_ready_of_not_owns (hkept : cache.Kept) (howns : cache.owns key id = false) :
    (cache.ready key id bytes now).entries = cache.entries := by
  have hsame : cache.release key id bytes now = cache.entries := by
    rw [release, if_neg (by simp [howns])]
    refine Entries.update_eq_self fun entry hmem => if_neg fun hid => ?_
    rw [(owns_iff hkept.distinct).mpr ⟨entry, hmem, hid⟩] at howns
    cases howns
  have hloop := ready_eviction hkept key id bytes now
  rw [hsame] at hloop
  exact hloop.eq_of_withinLimits hkept.limits

section

variable (hkept : cache.Kept) (hown : (key, own) ∈ cache.entries) (hid : own.id = id)
  (hfits : bytes ≤ maxContextBytes)

include hfits

/-- A snapshot that alone fits is released and the loop runs. -/
theorem entries_ready : (cache.ready key id bytes now).entries =
    (cache.release key id bytes now).evict := by
  rw [ready, release, if_neg (by omega), if_neg (by omega)]

theorem remove_release (id now : Nat) : (cache.release key id bytes now).remove key = cache.entries.remove key := by
  rw [release, if_neg (by omega)]
  exact Entries.remove_update

theorem mem_release_of_ne (id now : Nat) {e : SessionKey × Entry} (hne : e.1 ≠ key) :
    e ∈ cache.release key id bytes now ↔ e ∈ cache.entries := by
  have hremoved : (cache.release key id bytes now).remove key = cache.entries.remove key :=
    remove_release hfits id now
  constructor
  · intro h
    exact (Entries.mem_remove.mp (hremoved ▸ Entries.mem_remove.mpr ⟨h, hne⟩)).1
  · intro h
    exact (Entries.mem_remove.mp (hremoved.symm ▸ Entries.mem_remove.mpr ⟨h, hne⟩)).1

include hown hid

theorem released_mem (now : Nat) : released key own bytes now ∈ cache.release key id bytes now := by
  rw [release, if_neg (by omega)]
  exact Entries.mem_update.mpr (.inr ⟨own, hown, by rw [if_pos hid]; rfl⟩)

include hkept

/-- The finishing session keeps an entry exactly when its released entry survives the loop. -/
theorem owns_ready_iff : (cache.ready key id bytes now).owns key id = true ↔
    released key own bytes now ∈ (cache.release key id bytes now).evict := by
  have hdistinct : (cache.release key id bytes now).Distinct := distinct_release hkept.distinct
  have hmem := released_mem hown hid hfits now
  rw [owns_iff (ready_spec hkept.distinct key id bytes now).1, entries_ready hfits]
  constructor
  · rintro ⟨entry, hentry, -⟩
    have hsame := hdistinct.unique ((Entries.evict_eviction _).sublist.subset hentry) hmem
    rwa [hsame] at hentry
  · exact fun h => ⟨_, h, hid⟩

end

/-- **When `ready` spares the others.** In every cache that operations lead to, and for every actor,
snapshot size and time: the finishing session is evicted together with others exactly when its
snapshot alone is within the budget, some idle session is ahead of it, and a limit is still exceeded
without those that are. -/
theorem sparesOthers_iff {ops : List Op} (hrun : Run (ofFun step) empty ops cache) :
    cache.SparesOthers key id bytes now ↔ cache.MakesRoom key id bytes now := by
  have hkept := kept_of_run hrun
  cases howns : cache.owns key id with
  | false =>
    refine iff_of_true (fun _ e he _ => ?_) fun own hown hid => ?_
    · rwa [entries_ready_of_not_owns hkept howns]
    · rw [(owns_iff hkept.distinct).mpr ⟨own, hown, hid⟩] at howns
      cases howns
  | true =>
    obtain ⟨own, hown, hid⟩ := (owns_iff hkept.distinct).mp howns
    by_cases hfits : bytes ≤ maxContextBytes
    · have hdistinct : (cache.release key id bytes now).Distinct := distinct_release hkept.distinct
      have hmem := released_mem hown hid hfits now
      have hrest : ((cache.release key id bytes now).remove key).WithinLimits := by
        rw [remove_release hfits id now]
        exact hkept.limits.sublist List.filter_sublist
      obtain ⟨hsurvives, hflushed⟩ := Entries.evict_keeps hdistinct hmem rfl hrest
      have hother : ∀ e ∈ cache.entries, ¬ (e.1 = key ∧ e.2.id = id) → e.1 ≠ key := by
        rintro e he hne rfl
        exact hne ⟨rfl, by rw [hkept.distinct.unique he hown, hid]⟩
      rw [SparesOthers, ← Bool.not_eq_true, owns_ready_iff hkept hown hid hfits, hsurvives,
        entries_ready hfits]
      constructor
      · rintro hspares own' hown' - - ⟨e, he, hahead⟩
        cases hkept.distinct.unique hown hown'
        by_contra hexceeded
        -- what is ahead of it would have been flushed
        have hkey : e.1 ≠ key := by
          intro hkey
          have hsame : e = released key own bytes now :=
            Prod.ext hkey (hdistinct.unique (hkey ▸ he) hmem)
          obtain hlt | ⟨-, hne, -⟩ := hahead.2
          · rw [hsame] at hlt
            exact lt_irrefl _ hlt
          · exact hne hsame
        have hleft := hspares hexceeded e ((mem_release_of_ne hfits id now hkey).mp he)
          fun h => hkey h.1
        rw [hflushed (mt hsurvives.mp hexceeded), Entries.mem_remove, Entries.behind,
          List.mem_filter, decide_eq_true_eq] at hleft
        exact hleft.1.2 hahead
      · intro hroom hexceeded e he hne
        have hkey := hother e he hne
        have hnone : ∀ e' ∈ cache.release key id bytes now,
            ¬ (cache.release key id bytes now).Ahead (released key own bytes now) e' :=
          fun e' he' hahead => hexceeded (hroom own hown hid hfits ⟨e', he', hahead⟩)
        rw [hflushed (mt hsurvives.mp hexceeded), Entries.mem_remove, Entries.behind,
          List.mem_filter, decide_eq_true_eq]
        have hrelease := (mem_release_of_ne hfits id now hkey).mpr he
        exact ⟨⟨hrelease, hnone e hrelease⟩, hkey⟩
    · refine iff_of_true (fun _ e he hne => ?_) fun _ _ _ hle => absurd hle hfits
      rw [ready, if_pos ⟨Nat.lt_of_not_le hfits, howns⟩]
      refine Entries.mem_remove.mpr ⟨he, ?_⟩
      rintro rfl
      exact hne ⟨rfl, by rw [hkept.distinct.unique he hown, hid]⟩

/-- The bytes of the sessions other than one that are busy. -/
def busyBytes (cache : Cache) (key : SessionKey) : Nat :=
  (((cache.entries.remove key).filter (·.2.busy)).map (·.2.bytes)).sum

/-- **With a clock that moves on**, every idle session is ahead of the finishing one, and what counts
is whether its snapshot fits beside those of the busy sessions. -/
theorem makesRoom_iff_of_newest (hkept : cache.Kept) (hown : (key, own) ∈ cache.entries)
    (hid : own.id = id) (hnewest : ∀ e ∈ cache.entries, e.2.busy = false → e.2.lastUsed < now) :
    cache.MakesRoom key id bytes now ↔
      (bytes ≤ maxContextBytes → (∃ e ∈ cache.entries, e.1 ≠ key ∧ e.2.busy = false) →
        cache.busyBytes key + bytes ≤ maxContextBytes) := by
  by_cases hfits : bytes ≤ maxContextBytes
  · have hdistinct : (cache.release key id bytes now).Distinct := distinct_release hkept.distinct
    have hmem := released_mem hown hid hfits now
    have hahead : ∀ e ∈ cache.release key id bytes now,
        (cache.release key id bytes now).Ahead (released key own bytes now) e ↔
          e.1 ≠ key ∧ e.2.busy = false := by
      intro e he
      by_cases hkey : e.1 = key
      · have hsame : e = released key own bytes now :=
          Prod.ext hkey (hdistinct.unique (hkey ▸ he) hmem)
        subst hsame
        simp [Entries.Ahead, released]
      · have hcache := (mem_release_of_ne hfits id now hkey).mp he
        refine ⟨fun h => ⟨hkey, h.1⟩, fun h => ⟨h.2, .inl (hnewest e hcache h.2)⟩⟩
    have hbehind : ((cache.release key id bytes now).behind (released key own bytes now)).Perm
        (released key own bytes now :: (cache.entries.remove key).filter (·.2.busy)) := by
      have hself : released key own bytes now ∈
          (cache.release key id bytes now).behind (released key own bytes now) :=
        List.mem_filter.mpr ⟨hmem, decide_eq_true fun h => ((hahead _ hmem).mp h).1 rfl⟩
      refine (Entries.perm_cons_remove ((List.filter_sublist.map Prod.fst).nodup hdistinct)
        hself).trans (.of_eq (congrArg _ ?_))
      rw [← remove_release hfits id now]
      unfold Entries.remove
      rw [List.filter_filter, List.filter_filter]
      refine List.filter_congr fun e he => ?_
      by_cases hkey : e.1 = key
      · simp [released, hkey]
      · have hne : e.1 ≠ (released key own bytes now).1 := hkey
        simp [hahead e he, hkey, hne]
    have hlimits : ((cache.release key id bytes now).behind (released key own bytes now)).WithinLimits ↔
        cache.busyBytes key + bytes ≤ maxContextBytes := by
      have hidle : (released key own bytes now :: (cache.entries.remove key).filter
          (·.2.busy)).countP (!·.2.busy) = 1 := by
        rw [List.countP_cons_of_pos (by rfl), List.countP_eq_zero.mpr fun e he => ?_]
        simpa using (List.mem_filter.mp he).2
      have hbytes : ((released key own bytes now :: (cache.entries.remove key).filter
          (·.2.busy)).map (·.2.bytes)).sum = cache.busyBytes key + bytes := by
        rw [List.map_cons, List.sum_cons, Nat.add_comm]
        rfl
      refine ⟨fun h => hbytes ▸ (h.perm hbehind.symm).bytes, fun h => ?_⟩
      exact Entries.WithinLimits.perm ⟨by rw [hidle]; decide, by rwa [hbytes]⟩ hbehind
    have hsome : (∃ e ∈ cache.release key id bytes now,
        (cache.release key id bytes now).Ahead (released key own bytes now) e) ↔
          ∃ e ∈ cache.entries, e.1 ≠ key ∧ e.2.busy = false := by
      refine exists_congr fun e => ⟨fun ⟨he, h⟩ => ?_, fun ⟨he, hne, hidle⟩ => ?_⟩
      · obtain ⟨hne, hidle⟩ := (hahead e he).mp h
        exact ⟨(mem_release_of_ne hfits id now hne).mp he, hne, hidle⟩
      · have hrelease := (mem_release_of_ne hfits id now hne).mpr he
        exact ⟨hrelease, (hahead e hrelease).mpr ⟨hne, hidle⟩⟩
    constructor
    · intro hroom _ hidle
      exact hlimits.mp (hroom own hown hid hfits (hsome.mpr hidle))
    · rintro hroom own' hown' - - hidle
      cases hkept.distinct.unique hown hown'
      exact hlimits.mpr (hroom hfits (hsome.mp hidle))
  · exact iff_of_true (fun _ _ _ hle => absurd hle hfits) fun hle => absurd hle hfits

/-! ### A snapshot that flushes and is not kept -/

/-- A key of the client. -/
private def threadKey (value : String) : SessionKey := ⟨"client", "thread_id", value⟩

/-- A session whose snapshot nearly fills the budget gets another turn; a session is idle; and a third
one has its first turn. -/
private def fullOps : List Op :=
  [.stream (some (threadKey "full")) 1, .ready (threadKey "full") 0 (maxContextBytes - 10) 2,
    .stream (some (threadKey "idle")) 3, .ready (threadKey "idle") 1 5 4,
    .stream (some (threadKey "full")) 5, .stream (some (threadKey "new")) 6]

/-- The cache they lead to. -/
private def full : Cache :=
  ⟨[(threadKey "full", ⟨0, true, 2, maxContextBytes - 10⟩), (threadKey "idle", ⟨1, false, 4, 5⟩),
    (threadKey "new", ⟨2, true, 6, 0⟩)], 3⟩

private theorem run_full : Run (ofFun step) empty fullOps full := run_ofFun_iff.mpr (by decide)

/-- A snapshot that fits beside the busy session is kept, and the idle session makes room. -/
theorem sparesOthers_iff_full :
    full.SparesOthers (threadKey "new") 2 10 7 ∧
      (full.ready (threadKey "new") 2 10 7).entries.map (·.1.value) = ["full", "new"] := by
  refine ⟨(sparesOthers_iff run_full).mpr ?_, by decide⟩
  have hown : (threadKey "new", ⟨2, true, 6, 0⟩) ∈ full.entries := by decide
  refine (makesRoom_iff_of_newest (kept_of_run run_full) hown rfl ?_).mpr fun _ _ => by decide
  decide

/-- **Flushed for nothing.** A snapshot of twenty bytes does not fit beside the busy session: the idle
session is evicted, and then the finishing one. -/
theorem not_sparesOthers_full :
    Run (ofFun step) empty fullOps full ∧ ¬ full.SparesOthers (threadKey "new") 2 20 7 ∧
      (full.ready (threadKey "new") 2 20 7).entries.map (·.1.value) = ["full"] := by
  refine ⟨run_full, fun hspares => ?_, by decide⟩
  have hidle := hspares (by decide) (threadKey "idle", ⟨1, false, 4, 5⟩) (by decide) (by decide)
  revert hidle
  decide

end Cache

end CodexApi
